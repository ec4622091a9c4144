import Portask.Lib.Channel
import Portask.Lib.Machine
import Portask.Lib.Tally

/-! # The message processor

Callers of `ProcessMessage` and `ProcessBatch`, the workers, `handleResults` and `Stop` of
`pkg/processor/processor.go` as one system. A caller of `ProcessMessage` gets its result
through a channel of its own, which the task's callback sends to; a caller of `ProcessBatch`
takes whatever comes next from the shared result queue, and so does `handleResults`. A
worker that panics sends the error to the shared queue, whoever asked.

Every channel operation is a step of its own. What a worker makes of a task, and whether it
panics, is chosen by the label. Contexts and timers may fire at any time.
-/

namespace Portask.Processor.MessageProcessor

open Lib

inductive ProcessType where
  | single
  | batch
  deriving DecidableEq

/-- Tasks are numbered by the calls that submit them. -/
structure ProcessTask where
  call : Nat
  type : ProcessType
  deriving DecidableEq

/-- The counter is incremented before it is read. -/
def ProcessTask.id (task : ProcessTask) : UInt64 := UInt64.ofNat (task.call + 1)

inductive TaskError (ε : Type) where
  | failed (err : ε)
  | processingPanic
  deriving DecidableEq

/-- The result of the task of a call: a message or a batch, or an error. -/
structure ProcessResult (ε V : Type) where
  call : Nat
  outcome : Except (TaskError ε) V
  deriving DecidableEq

def ProcessResult.taskID {ε V : Type} (result : ProcessResult ε V) : UInt64 :=
  UInt64.ofNat (result.call + 1)

inductive Reply (ε V : Type) where
  | result (result : ProcessResult ε V)
  | backpressure
  | cancelled
  | queueFull
  | timeout
  deriving DecidableEq

/-- What a caller sees of a reply. The two methods word one of the errors differently. -/
def Reply.error? {ε V : Type} (render : ε → String) (type : ProcessType) : Reply ε V → Option String
  | .result ⟨_, .ok _⟩ => none
  | .result ⟨_, .error (.failed err)⟩ => some (render err)
  | .result ⟨_, .error .processingPanic⟩ => some "processing panic occurred"
  | .backpressure =>
    match type with
    | .single => some "backpressure detected"
    | .batch => some "processor backpressure detected"
  | .cancelled => some "context canceled"
  | .queueFull => some "queue is full"
  | .timeout => some "processing timeout"

/-- Where a call is: before the backpressure check, at the select that submits the task, at
    the one that waits for the result, returned. -/
inductive Phase (ε V : Type) where
  | created
  | submitting
  | waiting
  | returned (reply : Reply ε V)

structure Call (ε V : Type) where
  type : ProcessType
  phase : Phase ε V
  resultChan : Chan (ProcessResult ε V)

/-- A worker is at its select, in `processTask` before there is a result, before it gives the
    result away, or in the deferred function after a panic. -/
inductive Worker (ε V : Type) where
  | idle
  | processing (task : ProcessTask)
  | answering (task : ProcessTask) (result : ProcessResult ε V)
  | panicking (task : ProcessTask)
  | stopped

/-- The next thing `Stop` does. -/
inductive Stopping where
  | notCalled
  | closeProcessing
  | closeResults
  | returned
  deriving DecidableEq

inductive Crash where
  | sendOnClosed
  | nilResult
  deriving DecidableEq

/-- `exceeds` compares a number of queued tasks, relative to the size of the queue, with the
    threshold. -/
structure ProcessorConfig where
  workerCount : Nat
  queueSize : Nat
  enableBackpressure : Bool
  exceeds : Nat → Bool

/-- The tasks on which a worker panicked are not part of the program. -/
structure System (ε V : Type) where
  config : ProcessorConfig
  calls : List (Call ε V)
  processingQueue : Chan ProcessTask
  resultQueue : Chan (ProcessResult ε V)
  workers : List (Worker ε V)
  handling : Bool
  cancelled : Bool
  stopping : Stopping
  panicked : List Nat
  crash : Option Crash

inductive Label (ε V : Type) where
  | call (type : ProcessType)
  | check (n : Nat)
  | submit (n : Nat)
  | contextDone (n : Nat)
  /-- The timer of the select the call is at. -/
  | timer (n : Nat)
  | receive (n : Nat)
  | take (w : Nat)
  | finish (w : Nat) (outcome : Except ε V)
  | panics (w : Nat)
  /-- The callback's timer may be due when its select begins. -/
  | answer (w : Nat) (late : Bool)
  | answerPanic (w : Nat)
  | workerStops (w : Nat)
  | workerCancelled (w : Nat)
  | handle
  | handlerStops
  | handlerCancelled
  | cancel
  | stop
  | closeProcessing
  | closeResults

/-- A processor on which `Start` has been called. -/
def started {ε V : Type} (config : ProcessorConfig) : System ε V where
  config := config
  calls := []
  processingQueue := .make config.queueSize
  resultQueue := .make config.queueSize
  workers := List.replicate config.workerCount .idle
  handling := true
  cancelled := false
  stopping := .notCalled
  panicked := []
  crash := none

namespace System

variable {ε V : Type} (s : System ε V)

def setCall (n : Nat) (call : Call ε V) : System ε V := { s with calls := s.calls.set n call }

def setWorker (w : Nat) (worker : Worker ε V) : System ε V :=
  { s with workers := s.workers.set w worker }

def setProcessing (queue : Chan ProcessTask) : System ε V := { s with processingQueue := queue }

def setResults (queue : Chan (ProcessResult ε V)) : System ε V := { s with resultQueue := queue }

def goto (n : Nat) (call : Call ε V) (phase : Phase ε V) : System ε V :=
  s.setCall n { call with phase }

def begin (type : ProcessType) : System ε V :=
  { s with calls := s.calls ++ [⟨type, .created, .make 1⟩] }

def crashed (crash : Crash) : System ε V := { s with crash := some crash }

/-- An unbuffered channel has length zero. -/
def isBackpressured : Bool :=
  s.config.exceeds (if s.config.queueSize = 0 then 0 else s.processingQueue.items.length)

def check (n : Nat) (call : Call ε V) : System ε V :=
  if s.config.enableBackpressure ∧ s.isBackpressured then s.goto n call (.returned .backpressure)
  else s.goto n call .submitting

def submit (n : Nat) (call : Call ε V) : Option (System ε V) :=
  match s.processingQueue.send ⟨n, call.type⟩ with
  | .sends queue => some ((s.goto n call .waiting).setProcessing queue)
  | .blocks => none
  | .panics => some (s.crashed .sendOnClosed)

/-- `ProcessMessage` reads its own channel. `ProcessBatch` reads the shared queue, and the
    fields of what it got. -/
def receive (n : Nat) (call : Call ε V) : Option (System ε V) :=
  match call.type with
  | .single =>
    match call.resultChan.receive with
    | .gives result chan =>
      some (s.setCall n { call with phase := .returned (.result result), resultChan := chan })
    | _ => none
  | .batch =>
    match s.resultQueue.receive with
    | .gives result queue => some ((s.goto n call (.returned (.result result))).setResults queue)
    | .givesNil => some (s.crashed .nilResult)
    | .blocks => none

/-- The callback sends to the channel of the call, unless its timer fires first. -/
def callback (w : Nat) (task : ProcessTask) (result : ProcessResult ε V) (late : Bool) :
    Option (System ε V) :=
  if late then some (s.setWorker w .idle)
  else
    match s.calls[task.call]? with
    | some call =>
      match call.resultChan.send result with
      | .sends chan => some ((s.setWorker w .idle).setCall task.call { call with resultChan := chan })
      | _ => none
    | none => none

/-- The end of `processTask`. A send on the closed queue panics, and the panic is recovered. -/
def answer (w : Nat) (task : ProcessTask) (result : ProcessResult ε V) (late : Bool) :
    Option (System ε V) :=
  match task.type with
  | .single => s.callback w task result late
  | .batch =>
    match s.resultQueue.send result with
    | .sends queue => some ((s.setWorker w .idle).setResults queue)
    | .blocks => none
    | .panics => some (s.setWorker w (.panicking task))

/-- The deferred function. Nobody recovers from a panic of its own. -/
def answerPanic (w : Nat) (task : ProcessTask) : Option (System ε V) :=
  match s.resultQueue.send ⟨task.call, .error .processingPanic⟩ with
  | .sends queue => some ((s.setWorker w .idle).setResults queue)
  | .blocks => none
  | .panics => some (s.crashed .sendOnClosed)

def act : Label ε V → Option (System ε V)
  | .call type => some (s.begin type)
  | .check n =>
    match s.calls[n]? with
    | some ⟨type, .created, chan⟩ => some (s.check n ⟨type, .created, chan⟩)
    | _ => none
  | .submit n =>
    match s.calls[n]? with
    | some ⟨type, .submitting, chan⟩ => s.submit n ⟨type, .submitting, chan⟩
    | _ => none
  | .contextDone n =>
    match s.calls[n]? with
    | some ⟨type, .submitting, chan⟩ =>
      some (s.goto n ⟨type, .submitting, chan⟩ (.returned .cancelled))
    | some ⟨.single, .waiting, chan⟩ =>
      some (s.goto n ⟨.single, .waiting, chan⟩ (.returned .cancelled))
    | _ => none
  | .timer n =>
    match s.calls[n]? with
    | some ⟨.single, .submitting, chan⟩ =>
      some (s.goto n ⟨.single, .submitting, chan⟩ (.returned .queueFull))
    | some ⟨.single, .waiting, chan⟩ =>
      some (s.goto n ⟨.single, .waiting, chan⟩ (.returned .timeout))
    | _ => none
  | .receive n =>
    match s.calls[n]? with
    | some ⟨type, .waiting, chan⟩ => s.receive n ⟨type, .waiting, chan⟩
    | _ => none
  | .take w =>
    match s.workers[w]?, s.processingQueue.receive with
    | some .idle, .gives task queue => some ((s.setWorker w (.processing task)).setProcessing queue)
    | _, _ => none
  | .finish w outcome =>
    match s.workers[w]? with
    | some (.processing task) =>
      some (s.setWorker w (.answering task ⟨task.call, outcome.mapError .failed⟩))
    | _ => none
  | .panics w =>
    match s.workers[w]? with
    | some (.processing task) =>
      some { s.setWorker w (.panicking task) with panicked := task.call :: s.panicked }
    | _ => none
  | .answer w late =>
    match s.workers[w]? with
    | some (.answering task result) => s.answer w task result late
    | _ => none
  | .answerPanic w =>
    match s.workers[w]? with
    | some (.panicking task) => s.answerPanic w task
    | _ => none
  | .workerStops w =>
    match s.workers[w]?, s.processingQueue.receive with
    | some .idle, .givesNil => some (s.setWorker w .stopped)
    | _, _ => none
  | .workerCancelled w =>
    match s.workers[w]? with
    | some .idle => if s.cancelled then some (s.setWorker w .stopped) else none
    | _ => none
  | .handle =>
    match s.resultQueue.receive with
    | .gives _ queue => if s.handling then some (s.setResults queue) else none
    | _ => none
  | .handlerStops =>
    match s.resultQueue.receive with
    | .givesNil => if s.handling then some { s with handling := false } else none
    | _ => none
  | .handlerCancelled =>
    if s.handling ∧ s.cancelled then some { s with handling := false } else none
  | .cancel => some { s with cancelled := true }
  | .stop =>
    match s.stopping with
    | .notCalled => some { s with stopping := .closeProcessing }
    | .returned => some s
    | _ => none
  | .closeProcessing =>
    match s.stopping with
    | .closeProcessing =>
      some { s with processingQueue := s.processingQueue.close, stopping := .closeResults }
    | _ => none
  | .closeResults =>
    match s.stopping with
    | .closeResults => some { s with resultQueue := s.resultQueue.close, stopping := .returned }
    | _ => none

def next (label : Label ε V) : Option (System ε V) :=
  match s.crash with
  | none => s.act label
  | some _ => none

variable {s}

theorem of_setCall (found : (s.setCall n new).calls[m]? = some call) :
    m = n ∧ call = new ∨ m ≠ n ∧ s.calls[m]? = some call :=
  forall_set (P := fun m call => m = n ∧ call = new ∨ m ≠ n ∧ s.calls[m]? = some call)
    (fun _ _ other there => .inr ⟨other, there⟩) (.inl ⟨rfl, rfl⟩) m call found

theorem of_setWorker (found : (s.setWorker w new).workers[v]? = some worker) :
    v = w ∧ worker = new ∨ v ≠ w ∧ s.workers[v]? = some worker :=
  forall_set (P := fun v worker => v = w ∧ worker = new ∨ v ≠ w ∧ s.workers[v]? = some worker)
    (fun _ _ other there => .inr ⟨other, there⟩) (.inl ⟨rfl, rfl⟩) v worker found

theorem of_begin (found : (s.begin type).calls[n]? = some call) :
    s.calls[n]? = some call ∨ n = s.calls.length ∧ call = ⟨type, .created, .make 1⟩ := by
  obtain ⟨-, old⟩ | new := getElem?_concat_cases found
  · exact .inl old
  · exact .inr new

end System

variable {ε V : Type}

def machine : Machine (System ε V) (Label ε V) := ⟨System.next⟩

/-- A batch caller is between its submission and its return. -/
def Call.awaitsBatch : Call ε V → Bool
  | ⟨.batch, .waiting, _⟩ => true
  | _ => false

variable {call : Call ε V}

theorem Call.awaitsBatch_iff : call.awaitsBatch = true ↔
    call.type = .batch ∧ call.phase = .waiting := by
  obtain ⟨type, phase, chan⟩ := call
  cases type <;> cases phase <;> simp [awaitsBatch]

theorem Call.not_awaitsBatch (elsewhere : call.phase ≠ .waiting) : call.awaitsBatch = false :=
  Bool.eq_false_iff.mpr fun awaits => elsewhere (awaitsBatch_iff.mp awaits).2

/-- What is in the channel of a call says nothing about its wait for a batch. -/
theorem Call.awaitsBatch_resultChan (call : Call ε V) (chan : Chan (ProcessResult ε V)) :
    awaitsBatch { call with resultChan := chan } = call.awaitsBatch := by
  obtain ⟨type, phase, old⟩ := call
  cases type <;> cases phase <;> rfl

/-- Nothing but a result ends the wait of a batch caller. -/
structure Leaves (call : Call ε V) (reply : Reply ε V) : Prop where
  inside : ∀ reply, call.phase ≠ .returned reply
  notAwaiting : call.awaitsBatch = false
  noResult : ∀ result, reply ≠ .result result

/-- What panics without anybody to recover: a send of a caller, a send of a deferred function,
    a read through the nil that a closed result queue gives. -/
inductive Crashes (s : System ε V) : Crash → Prop
  | submit {n : Nat} {call : Call ε V} (found : s.calls[n]? = some call)
    (here : call.phase = .submitting)
      (closed : s.processingQueue.closed = true) : Crashes s .sendOnClosed
  | answerPanic {w : Nat} {task : ProcessTask} (here : s.workers[w]? = some (.panicking task))
      (closed : s.resultQueue.closed = true) : Crashes s .sendOnClosed
  | nilResult {n : Nat} {call : Call ε V} (found : s.calls[n]? = some call)
    (awaits : call.awaitsBatch = true)
      (closed : s.resultQueue.closed = true) : Crashes s .nilResult

/-- What a step does, with the branches of the code taken apart. -/
inductive Step (s : System ε V) : Label ε V → System ε V → Prop
  | begins (type : ProcessType) : Step s (.call type) (s.begin type)
  | clears {n call} (found : s.calls[n]? = some call) (here : call.phase = .created) :
      Step s (.check n) (s.goto n call .submitting)
  | leaves {label n call reply} (found : s.calls[n]? = some call)
      (leaves : Leaves call reply) : Step s label (s.goto n call (.returned reply))
  | submits {n call queue} (found : s.calls[n]? = some call)
      (here : call.phase = .submitting) (sent : s.processingQueue.send ⟨n, call.type⟩ = .sends queue) :
      Step s (.submit n) ((s.goto n call .waiting).setProcessing queue)
  | receivesOwn {n call result chan} (found : s.calls[n]? = some call)
    (single : call.type = .single) (here : call.phase = .waiting)
      (received : call.resultChan.receive = .gives result chan) :
      Step s (.receive n)
        (s.setCall n { call with phase := .returned (.result result), resultChan := chan })
  | receivesShared {n call result queue} (found : s.calls[n]? = some call)
    (awaits : call.awaitsBatch = true)
      (received : s.resultQueue.receive = .gives result queue) :
      Step s (.receive n) ((s.goto n call (.returned (.result result))).setResults queue)
  | takes {w task queue} (idle : s.workers[w]? = some .idle)
      (received : s.processingQueue.receive = .gives task queue) :
      Step s (.take w) ((s.setWorker w (.processing task)).setProcessing queue)
  | finishes {w task} (outcome : Except ε V) (here : s.workers[w]? = some (.processing task)) :
      Step s (.finish w outcome) (s.setWorker w (.answering task ⟨task.call, outcome.mapError .failed⟩))
  | panics {w task} (here : s.workers[w]? = some (.processing task)) :
      Step s (.panics w) { s.setWorker w (.panicking task) with panicked := task.call :: s.panicked }
  | callsBack {w task result late call chan} (here : s.workers[w]? = some (.answering task result))
      (single : task.type = .single) (found : s.calls[task.call]? = some call)
      (sent : call.resultChan.send result = .sends chan) :
      Step s (.answer w late) ((s.setWorker w .idle).setCall task.call { call with resultChan := chan })
  | callsBackLate {w task result late} (here : s.workers[w]? = some (.answering task result))
    (single : task.type = .single) :
      Step s (.answer w late) (s.setWorker w .idle)
  | answers {w task result late queue} (here : s.workers[w]? = some (.answering task result))
      (batch : task.type = .batch) (sent : s.resultQueue.send result = .sends queue) :
      Step s (.answer w late) ((s.setWorker w .idle).setResults queue)
  | answerPanics {w task result late} (here : s.workers[w]? = some (.answering task result))
    (batch : task.type = .batch)
      (closed : s.resultQueue.closed = true) : Step s (.answer w late) (s.setWorker w (.panicking task))
  | sendsPanic {w task queue} (here : s.workers[w]? = some (.panicking task))
      (sent : s.resultQueue.send ⟨task.call, .error .processingPanic⟩ = .sends queue) :
      Step s (.answerPanic w) ((s.setWorker w .idle).setResults queue)
  | crashes {label crash} (crashes : Crashes s crash) : Step s label (s.crashed crash)
  | workerEnds {label w} (idle : s.workers[w]? = some .idle)
      (ended : s.processingQueue.receive = .givesNil ∨ s.cancelled = true) :
        Step s label (s.setWorker w .stopped)
  | handles {result queue} (received : s.resultQueue.receive = .gives result queue) :
    Step s .handle (s.setResults queue)
  | handlerEnds {label} (running : s.handling = true)
      (ended : s.resultQueue.receive = .givesNil ∨ s.cancelled = true) :
        Step s label { s with handling := false }
  | cancels : Step s .cancel { s with cancelled := true }
  | stops (notCalled : s.stopping = .notCalled) :
    Step s .stop { s with stopping := .closeProcessing }
  | stopsAgain : Step s .stop s
  | closesProcessing (here : s.stopping = .closeProcessing) :
      Step s .closeProcessing
        { s with processingQueue := s.processingQueue.close, stopping := .closeResults }
  | closesResults (here : s.stopping = .closeResults) :
      Step s .closeResults { s with resultQueue := s.resultQueue.close, stopping := .returned }

variable {s t : System ε V} {result : ProcessResult ε V}

-- The cases below are the branches of the functions; those that the last line closes are not enabled.

theorem step_of_callback (here : s.workers[w]? = some (.answering task result))
    (single : task.type = .single) (stepped : s.callback w task result late = some t) :
    Step s (.answer w late) t := by
  revert stepped
  fun_cases System.callback with
  | case1 =>
    rintro ⟨⟩
    exact .callsBackLate here single
  | case2 _ call found chan sent =>
    rintro ⟨⟩
    exact .callsBack here single found sent
  | _ => simp

theorem step_of_receive (found : s.calls[n]? = some call) (here : call.phase = .waiting)
    (stepped : s.receive n call = some t) : Step s (.receive n) t := by
  revert stepped
  fun_cases System.receive with
  | case1 single result chan received =>
    rintro ⟨⟩
    exact .receivesOwn found single here received
  | case3 batch result queue received =>
    rintro ⟨⟩
    exact .receivesShared found (Call.awaitsBatch_iff.mpr ⟨batch, here⟩) received
  | case4 batch received =>
    rintro ⟨⟩
    exact .crashes
      (.nilResult found (Call.awaitsBatch_iff.mpr ⟨batch, here⟩) (Chan.of_givesNil received).2)
  | _ => simp

theorem step_of_answer (here : s.workers[w]? = some (.answering task result))
    (stepped : s.answer w task result late = some t) : Step s (.answer w late) t := by
  revert stepped
  fun_cases System.answer with
  | case1 single => exact step_of_callback here single
  | case2 batch queue sent =>
    rintro ⟨⟩
    exact .answers here batch sent
  | case4 batch panicked =>
    rintro ⟨⟩
    exact .answerPanics here batch (Chan.of_panics panicked)
  | _ => simp

theorem step_of_act (stepped : s.act label = some t) : Step s label t := by
  revert stepped
  fun_cases System.act with
  | case1 type =>
    rintro ⟨⟩
    exact .begins type
  | case2 n type chan found =>
    rintro ⟨⟩
    rw [System.check]
    split
    · exact .leaves found ⟨by simp, by simp [Call.awaitsBatch], by simp⟩
    · exact .clears found rfl
  | case4 n type chan found =>
    fun_cases System.submit with
    | case1 queue sent =>
      rintro ⟨⟩
      exact .submits found rfl sent
    | case3 panicked =>
      rintro ⟨⟩
      exact .crashes (.submit found rfl (Chan.of_panics panicked))
    | _ => simp
  | case6 n _ chan found | case7 n chan found | case9 n chan found | case10 n chan found =>
    rintro ⟨⟩
    exact .leaves found ⟨by simp, by simp [Call.awaitsBatch], by simp⟩
  | case12 n type chan found => exact step_of_receive found rfl
  | case14 w task queue received idle =>
    rintro ⟨⟩
    exact .takes idle received
  | case16 w outcome task here =>
    rintro ⟨⟩
    exact .finishes outcome here
  | case18 w task here =>
    rintro ⟨⟩
    exact .panics here
  | case20 w late task result here => exact step_of_answer here
  | case22 w task here =>
    fun_cases System.answerPanic with
    | case1 queue sent =>
      rintro ⟨⟩
      exact .sendsPanic here sent
    | case3 panicked =>
      rintro ⟨⟩
      exact .crashes (.answerPanic here (Chan.of_panics panicked))
    | _ => simp
  | case24 w ended idle =>
    rintro ⟨⟩
    exact .workerEnds idle (.inl ended)
  | case26 w idle cancelled =>
    rintro ⟨⟩
    exact .workerEnds idle (.inr cancelled)
  | case29 result queue received =>
    rintro ⟨⟩
    exact .handles received
  | case32 ended running =>
    rintro ⟨⟩
    exact .handlerEnds running (.inl ended)
  | case35 both =>
    rintro ⟨⟩
    exact .handlerEnds both.1 (.inr both.2)
  | case37 =>
    rintro ⟨⟩
    exact .cancels
  | case38 notCalled =>
    rintro ⟨⟩
    exact .stops notCalled
  | case39 =>
    rintro ⟨⟩
    exact .stopsAgain
  | case41 here =>
    rintro ⟨⟩
    exact .closesProcessing here
  | case43 here =>
    rintro ⟨⟩
    exact .closesResults here
  | _ => simp

theorem step_of_next (stepped : s.next label = some t) : s.crash = none ∧ Step s label t := by
  rw [System.next] at stepped
  split at stepped
  · next alive => exact ⟨alive, step_of_act stepped⟩
  · cases stepped

end Portask.Processor.MessageProcessor
