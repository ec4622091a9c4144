import Mathlib.Logic.Function.Basic
import Portask.Queue.LockFreeSequential

/-! # The message bus

The three priority queues of `pkg/queue/lockfree.go` behind `Publish`,
`PublishToPriority` and the dequeues of a worker, as one caller after the other
executes them. A message is a pointer `M`; the bus state holds what the pointers
lead to, since `PublishToPriority` writes through its argument.
-/

namespace Portask.Queue

open Lib Lib.Ring

inductive ErrorCode where
  | systemError
  | resourceExhausted
  deriving DecidableEq

def ErrorCode.text : ErrorCode → String
  | .systemError => "SYSTEM_ERROR"
  | .resourceExhausted => "RESOURCE_EXHAUSTED"

/-- A value under a key of an error's details. -/
inductive ErrorDetail where
  | text (value : String)
  | priority (value : UInt8)
  deriving DecidableEq

structure PortaskError where
  code : ErrorCode
  message : String
  details : List (String × ErrorDetail) := []
  deriving DecidableEq

def PortaskError.withDetail (err : PortaskError) (key : String) (value : ErrorDetail) :
    PortaskError :=
  { err with details := err.details ++ [(key, value)] }

/-- The text of `Error`. -/
def PortaskError.error (err : PortaskError) : String := "[" ++ err.code.text ++ "] " ++ err.message

def priorityLow : UInt8 := 1

def priorityNormal : UInt8 := 5

def priorityHigh : UInt8 := 9

/-- What the bus reads of a message: its priority and what `GetSize` returns. -/
structure BusMessage where
  priority : UInt8
  size : Int64
  deriving DecidableEq

inductive Level where
  | high
  | normal
  | low
  deriving DecidableEq

/-- Every priority that is neither high nor low goes to the normal queue. -/
def levelOf (priority : UInt8) : Level :=
  if priority = priorityHigh then .high
  else if priority = priorityLow then .low
  else .normal

structure MessageBusConfig where
  highPriorityQueueSize : Int64
  normalPriorityQueueSize : Int64
  lowPriorityQueueSize : Int64
  dropPolicy : DropPolicy

structure MessageBus (M : Type) where
  highPriorityQueue : LockFreeQueue M
  normalPriorityQueue : LockFreeQueue M
  lowPriorityQueue : LockFreeQueue M
  totalMessages : UInt64
  totalBytes : UInt64
  running : Bool
  workerNotify : Nat
  messages : M → BusMessage

/-- `none` is a panic of one of the three constructors. -/
def newMessageBus {M : Type} (config : MessageBusConfig) (messages : M → BusMessage) :
    Option (MessageBus M) := do
  let high ← newLockFreeQueue "high-priority" config.highPriorityQueueSize config.dropPolicy
  let normal ← newLockFreeQueue "normal-priority" config.normalPriorityQueueSize config.dropPolicy
  let low ← newLockFreeQueue "low-priority" config.lowPriorityQueueSize config.dropPolicy
  return {
    highPriorityQueue := high, normalPriorityQueue := normal, lowPriorityQueue := low
    totalMessages := 0, totalBytes := 0, running := false, workerNotify := 0, messages }

/-- How an attempt to put a message into a queue ends. -/
inductive Outcome where
  | enqueued
  /-- Enqueued after the oldest message was dropped. -/
  | forced
  /-- Accepted without enqueuing. -/
  | lost
  | full
  deriving DecidableEq

/-- What both publishing methods do with the queue they select. -/
def LockFreeQueue.offer {M : Type} (q : LockFreeQueue M) (message : M) :
    LockFreeQueue M × Outcome :=
  let (q, ok) := q.enqueue (some message)
  if ok then (q, .enqueued)
  else if q.dropPolicy = .dropOldest then
    let (q, ok) := q.tryForceEnqueueDropOldest (some message)
    if ok then (q, .forced) else (q.addDropCount, .lost)
  else (q, .full)

namespace MessageBus

variable {M : Type}

def queue (bus : MessageBus M) : Level → LockFreeQueue M
  | .high => bus.highPriorityQueue
  | .normal => bus.normalPriorityQueue
  | .low => bus.lowPriorityQueue

def setQueue (bus : MessageBus M) (level : Level) (q : LockFreeQueue M) : MessageBus M :=
  match level with
  | .high => { bus with highPriorityQueue := q }
  | .normal => { bus with normalPriorityQueue := q }
  | .low => { bus with lowPriorityQueue := q }

def errAlreadyRunning : PortaskError :=
  { code := .systemError, message := "message bus already running" }

def errNotRunning : PortaskError := { code := .systemError, message := "message bus not running" }

def errQueueFull (queue : String) (priority : UInt8) : PortaskError :=
  (({ code := .resourceExhausted, message := "queue full" } : PortaskError).withDetail "queue"
    (.text queue)).withDetail
    "priority" (.priority priority)

section

variable (bus : MessageBus M)

def start : MessageBus M × Option PortaskError :=
  if bus.running then (bus, some errAlreadyRunning) else ({ bus with running := true }, none)

/-- The statistics a publication updates before it routes the message. -/
def countMessage (message : M) : MessageBus M :=
  { bus with
    totalMessages := bus.totalMessages + 1
    totalBytes := bus.totalBytes + (bus.messages message).size.toUInt64 }

/-- The bus never registers a worker, so that only its own channel of 1000 is sent to. -/
def notifyWorkers : MessageBus M :=
  if bus.workerNotify < 1000 then { bus with workerNotify := bus.workerNotify + 1 } else bus

def route (message : M) (priority : UInt8) : MessageBus M × Outcome :=
  let bus := bus.countMessage message
  let (q, outcome) := (bus.queue (levelOf priority)).offer message
  (bus.setQueue (levelOf priority) q, outcome)

/-- Of the outcomes only `full` is an error. -/
def errorOf (priority : UInt8) : Outcome → Option PortaskError
  | .enqueued | .forced | .lost => none
  | .full => some (errQueueFull (bus.queue (levelOf priority)).name priority)

/-- Workers are notified unless the message was forced in or lost. -/
def publish (message : M) : MessageBus M × Option PortaskError :=
  if bus.running = false then (bus, some errNotRunning)
  else
    let priority := (bus.messages message).priority
    let (bus, outcome) := bus.route message priority
    (if outcome = .enqueued then bus.notifyWorkers else bus, bus.errorOf priority outcome)

end

/-- Writes the priority into the message, whoever else holds it. -/
def setPriority [DecidableEq M] (bus : MessageBus M) (message : M) (priority : UInt8) :
    MessageBus M :=
  { bus with messages := Function.update bus.messages message { bus.messages message with priority } }

/-- Overrides the priority of the message, and notifies nobody. -/
def publishToPriority [DecidableEq M] (bus : MessageBus M) (message : M) (priority : UInt8) :
    MessageBus M × Option PortaskError :=
  if bus.running = false then (bus, some errNotRunning)
  else
    let (bus, outcome) := (bus.setPriority message priority).route message priority
    (bus, bus.errorOf priority outcome)

/-- What a worker's `processFromQueue` takes for its processor. -/
def processFromQueue (bus : MessageBus M) (level : Level) : MessageBus M × Option M × Bool :=
  let (q, item, ok) := (bus.queue level).dequeue
  (bus.setQueue level q, item, ok)

inductive Call (M : Type) where
  | publish (message : M)
  | publishToPriority (message : M) (priority : UInt8)
  | processFromQueue (level : Level)
  deriving DecidableEq

inductive Answer (M : Type) where
  | published (err : Option PortaskError)
  | processed (item : Option M) (ok : Bool)
  deriving DecidableEq

def object [DecidableEq M] : Object (MessageBus M) (Call M) (Answer M) where
  apply bus
    | .publish message => ((bus.publish message).1, .published (bus.publish message).2)
    | .publishToPriority message priority =>
      ((bus.publishToPriority message priority).1, .published (bus.publishToPriority message priority).2)
    | .processFromQueue level =>
      ((bus.processFromQueue level).1,
        .processed (bus.processFromQueue level).2.1 (bus.processFromQueue level).2.2)

section

variable (bus : MessageBus M)

@[simp] theorem queue_setQueue (level other : Level) (q : LockFreeQueue M) :
    (bus.setQueue level q).queue other = if other = level then q else bus.queue other := by
  cases level <;> cases other <;> rfl

@[simp] theorem running_setQueue (level : Level) (q : LockFreeQueue M) :
    (bus.setQueue level q).running = bus.running := by
  cases level <;> rfl

@[simp] theorem queue_notifyWorkers (level : Level) :
    bus.notifyWorkers.queue level = bus.queue level := by
  rw [notifyWorkers]
  split
  · cases level <;> rfl
  · rfl

@[simp] theorem running_notifyWorkers : bus.notifyWorkers.running = bus.running := by
  rw [notifyWorkers]
  split <;> rfl

end

@[simp] theorem queue_setPriority [DecidableEq M] (bus : MessageBus M) (message : M)
    (priority : UInt8)
    (level : Level) : (bus.setPriority message priority).queue level = bus.queue level := by
  cases level <;> rfl

@[simp] theorem running_setPriority [DecidableEq M] (bus : MessageBus M) (message : M)
    (priority : UInt8) : (bus.setPriority message priority).running = bus.running := rfl

variable (bus : MessageBus M)

theorem queue_route (message : M) (priority : UInt8) (level : Level) :
    (bus.route message priority).1.queue level =
      if level = levelOf priority then ((bus.queue level).offer message).1 else bus.queue level := by
  have untouched : ∀ other, (bus.countMessage message).queue other = bus.queue other := by
    intro other
    cases other <;> rfl
  simp only [route, queue_setQueue, untouched]
  split
  · subst_vars
    rfl
  · rfl

theorem running_route (message : M) (priority : UInt8) :
    (bus.route message priority).1.running = bus.running := by
  simp [route, countMessage]

theorem outcome_route (message : M) (priority : UInt8) :
    (bus.route message priority).2 = ((bus.queue (levelOf priority)).offer message).2 := by
  simp only [route]
  cases levelOf priority <;> rfl

theorem errorOf_eq_none (priority : UInt8) (outcome : Outcome) :
    bus.errorOf priority outcome = none ↔ outcome ≠ .full := by
  cases outcome <;> simp [errorOf]

end MessageBus

end Portask.Queue
