import Portask.Queue.DropOldest
import Portask.Queue.MessageBus

/-! # The accounts of the message bus

Beside the bus runs a ledger for each queue: the messages its publishers were told
are accepted, those that were refused, and those handed to a worker. The statistics
of a queue should be readable from it. They are, until a publication meets a full
queue whose policy is to drop the oldest: `Publish` then answers nil although the
message is in no slot, and the positions of the queue no longer fit its slots.
-/

namespace Portask.Queue

open Function Lib Lib.Ring

namespace LockFreeQueue

variable {M : Type} {q : LockFreeQueue M} {e head : Nat} {held : List (Option M)}

theorem Shape.capacity_word (shape : q.Shape e) : q.capacity.toUInt64 = UInt64.ofNat (2 ^ e) := by
  have nonneg : 0 ≤ q.capacity := by
    rw [Int64.le_iff_toInt_le, shape.capacity, Int64.toInt_zero]
    exact_mod_cast Nat.zero_le (2 ^ e)
  have value := toInt_of_nonneg nonneg
  rw [shape.capacity] at value
  rw [← UInt64.ofNat_toNat (x := q.capacity.toUInt64)]
  congr 1
  exact_mod_cast value.symm

/-- What stands in the slots from `dequeuePos` up to `enqueuePos`. -/
def contents (q : LockFreeQueue M) : List (Option M) :=
  (List.range q.size.toNatClampNeg).map fun i => q.data (q.dequeuePos + UInt64.ofNat i)

/-- The message is the one published in the slot that `enqueuePos` selected. -/
structure Stores (before after : LockFreeQueue M) (message : M) : Prop where
  advanced : after.enqueuePos = before.enqueuePos + 1
  published : after.sequence before.enqueuePos = before.enqueuePos + 1
  data : after.data before.enqueuePos = some message

section

variable (rep : q.Represents e head held)
include rep

theorem Represents.contents_eq : q.contents = held := by
  have length : q.size.toNatClampNeg = held.length := by
    rw [Int64.toNatClampNeg, rep.size_eq, Int.toNat_natCast]
  apply List.ext_getElem?
  intro i
  rw [contents, length]
  by_cases inside : i < held.length
  · obtain ⟨-, data⟩ := rep.holds.full i held[i] (by simp [inside])
    have index : q.data (q.dequeuePos + UInt64.ofNat i) = held[i] := by
      rw [LockFreeQueue.data, rep.dequeuePos, ← UInt64.ofNat_add, rep.shape.index, data]
    simp [inside, index]
  · simp [inside]

theorem Represents.size_word : q.size.toUInt64 = UInt64.ofNat held.length := by
  rw [size, rep.enqueuePos, rep.dequeuePos, UInt64.ofNat_add, UInt64.add_comm]
  simp

theorem Represents.enqueue_counts (room : held.length < 2 ^ e) (item : Option M) :
    (q.enqueue item).1.enqueueCount = q.enqueueCount + 1 ∧
      (q.enqueue item).1.dropCount = q.dropCount := by
  rw [enqueue_of_ready item ((dif_eq_zero_iff _ _).mpr (rep.enqueue_ready room))]
  exact ⟨rfl, rfl⟩

end

theorem Represents.dequeue_counts (rep : q.Represents e head (x :: held)) :
    q.dequeue.1.enqueueCount = q.enqueueCount ∧ q.dequeue.1.dropCount = q.dropCount := by
  obtain ⟨sequence, -⟩ := rep.holds.full 0 x (by simp)
  have ready : Ring.dif (q.sequence q.dequeuePos) (q.dequeuePos + 1) = 0 := by
    rw [dif_eq_zero_iff, rep.dequeue_sequence, rep.dequeuePos, word_succ]
    exact sequence
  rw [dequeue_of_ready ready]
  exact ⟨rfl, rfl⟩

theorem enqueueLoop_block (item : Option M) (tries : Nat) (policy : q.dropPolicy = .block)
    (notReady : Ring.dif (q.sequence q.enqueuePos) q.enqueuePos ≠ 0)
    (behind : Ring.dif (q.sequence q.enqueuePos) q.enqueuePos < 0) :
    enqueueLoop item tries q = (q.addDropCount, false) := by
  induction tries with
  | zero => rfl
  | succ tries ih =>
    rw [enqueueLoop]
    simpa only [notReady, behind, policy, if_false, if_true] using ih

section

variable (rep : q.Represents e head held)
include rep

/-- Unless it drops the oldest, a full queue counts the message and refuses it. -/
theorem Represents.enqueue_refuses (full : held.length = 2 ^ e)
    (policy : q.dropPolicy ≠ .dropOldest) (item : Option M) :
    q.enqueue item = (q.addDropCount, false) := by
  obtain ⟨notReady, behind⟩ := rep.enqueue_full full
  cases which : q.dropPolicy with
  | dropOldest => exact absurd which policy
  | dropNewest => exact rep.enqueue_dropNewest full which item
  | block => exact enqueueLoop_block item _ which notReady behind

theorem Represents.offer_room (room : held.length < 2 ^ e) (message : M) :
    q.offer message = ((q.enqueue (some message)).1, .enqueued) := by
  have ok := (rep.enqueue_room room (some message)).1
  simp [offer, ok]

theorem Represents.offer_full (full : held.length = 2 ^ e)
    (policy : q.dropPolicy ≠ .dropOldest) (message : M) :
    q.offer message = (q.addDropCount, .full) := by
  have kept : q.addDropCount.dropPolicy ≠ .dropOldest := policy
  simp [offer, rep.enqueue_refuses full policy, kept]

end

/-- `Dequeue` touches no slot but the one of `dequeuePos`. -/
theorem dequeue_frame (q : LockFreeQueue M) :
    q.dequeue.1.enqueuePos = q.enqueuePos ∧ q.dequeue.1.dropPolicy = q.dropPolicy ∧
      ∀ pos, q.index pos ≠ q.index q.dequeuePos → q.dequeue.1.sequence pos = q.sequence pos := by
  rw [dequeue]
  induction maxRetries with
  | zero => exact ⟨rfl, rfl, fun _ _ => rfl⟩
  | succ tries ih =>
    rw [dequeueLoop]
    split
    · refine ⟨rfl, rfl, ?_⟩
      intro pos elsewhere
      exact (sequenceAt_setSequence_ne _ _ (Ne.symm elsewhere)).trans (sequenceAt_setData _ _ _ _)
    · split
      · exact ⟨rfl, rfl, fun _ _ => rfl⟩
      · exact ih

/-- A full queue that drops the oldest takes the message without storing it: the
    first attempt moves `dequeuePos` past the oldest slot, so that the message then
    dropped is the second oldest, and the slot the second attempt looks at is still
    the oldest one. -/
theorem Represents.offer_lost (rep : q.Represents e head held) (full : held.length = 2 ^ e)
    (policy : q.dropPolicy = .dropOldest) (message : M) :
    (q.offer message).2 = .lost ∧ (q.offer message).1.enqueuePos = q.enqueuePos := by
  obtain ⟨notReady, behind⟩ := rep.enqueue_full full
  have first := enqueue_gives_up (some message) policy notReady behind
  set passed :=
    ({ q with dequeuePos := q.enqueuePos - q.capacity.toUInt64 + 1 }).addDropCount with passed_eq
  obtain ⟨samePos, samePolicy, elsewhere⟩ := passed.dequeue_frame
  generalize dropping : passed.dequeue.1 = dropped at samePos samePolicy elsewhere
  have oldest : passed.index passed.enqueuePos ≠ passed.index passed.dequeuePos := by
    have next : q.enqueuePos - q.capacity.toUInt64 + 1 = UInt64.ofNat (head + 1) := by
      rw [rep.enqueuePos, full, rep.shape.capacity_word, UInt64.ofNat_add,
        UInt64.add_sub_cancel, word_succ]
    change q.index q.enqueuePos ≠ q.index (q.enqueuePos - q.capacity.toUInt64 + 1)
    rw [next, rep.enqueuePos, full, rep.shape.index, rep.shape.index, slot_add_turn]
    exact (slot_succ_ne rep.shape.two head).symm
  have blocked : dropped.sequence dropped.enqueuePos = q.sequence q.enqueuePos := by
    rw [samePos, elsewhere _ oldest]
    rfl
  have second := enqueue_gives_up (q := dropped) (some message) (samePolicy.trans policy)
    (by rwa [blocked, samePos]) (by rwa [blocked, samePos])
  have stillDrops : passed.dropPolicy = .dropOldest := policy
  simp only [offer, first, stillDrops, tryForceEnqueueDropOldest, dropping, second, if_true,
    if_false, ne_eq, not_true_eq_false, Bool.false_eq_true]
  exact ⟨trivial, samePos⟩

end LockFreeQueue

namespace MessageBus

variable {M : Type}

/-- What the bus told the world about one queue, oldest first. -/
structure Ledger (M : Type) where
  accepted : List M := []
  refused : List M := []
  handed : List (Option M) := []

def Ledger.publication (ledger : Ledger M) (message : M) : Option PortaskError → Ledger M
  | none => { ledger with accepted := ledger.accepted ++ [message] }
  | some _ => { ledger with refused := ledger.refused ++ [message] }

def Ledger.handOut (ledger : Ledger M) (item : Option M) (ok : Bool) : Ledger M :=
  if ok then { ledger with handed := ledger.handed ++ [item] } else ledger

def Ledger.post (ledger : Ledger M) : Call M → Answer M → Ledger M
  | .publish message, .published err | .publishToPriority message _, .published err =>
    ledger.publication message err
  | .processFromQueue _, .processed item ok => ledger.handOut item ok
  | _, _ => ledger

def Call.message? : Call M → Option M
  | .publish message | .publishToPriority message _ => some message
  | .processFromQueue _ => none

def target (bus : MessageBus M) : Call M → Level
  | .publish message => levelOf (bus.messages message).priority
  | .publishToPriority _ priority => levelOf priority
  | .processFromQueue level => level

/-- Every accepted message was handed out, was discarded, or is in the queue, and the
    statistics count them so: what was enqueued is all of it, and what was dropped is
    what was discarded and what was refused. -/
def Balanced (q : LockFreeQueue M) (ledger : Ledger M) : Prop :=
  ∃ discarded : List M,
    (ledger.accepted.map some).Perm (ledger.handed ++ discarded.map some ++ q.contents) ∧
      q.enqueueCount = UInt64.ofNat (ledger.handed.length + discarded.length) + q.size.toUInt64 ∧
      q.dropCount = UInt64.ofNat (discarded.length + ledger.refused.length)

/-- The call does not publish to a full queue that drops the oldest. -/
def NotOnFull (bus : MessageBus M) (call : Call M) : Prop :=
  call.message?.isSome → (bus.queue (bus.target call)).dropPolicy = .dropOldest →
    (bus.queue (bus.target call)).isFull = false

instance (bus : MessageBus M) (call : Call M) : Decidable (NotOnFull bus call) :=
  inferInstanceAs (Decidable (_ → _ → _))

/-- The accounts of a queue at rest: nothing was ever discarded. -/
def Settled (q : LockFreeQueue M) (ledger : Ledger M) : Prop :=
  ∃ e head held, q.Represents e head held ∧ ledger.accepted.map some = ledger.handed ++ held ∧
    q.enqueueCount = UInt64.ofNat ledger.accepted.length ∧
      q.dropCount = UInt64.ofNat ledger.refused.length

namespace Settled

variable {q : LockFreeQueue M} {ledger : Ledger M}

theorem balanced (settled : Settled q ledger) : Balanced q ledger := by
  obtain ⟨e, head, held, rep, accepted, enqueued, dropped⟩ := settled
  refine ⟨[], ?_, ?_, ?_⟩
  · simp [accepted, rep.contents_eq]
  · have total : ledger.accepted.length = ledger.handed.length + held.length := by
      simpa using congrArg List.length accepted
    rw [enqueued, total, rep.size_word, UInt64.ofNat_add]
    simp
  · simpa using dropped

theorem new (made : newLockFreeQueue name capacity dropPolicy = some q)
    (two : 2 ≤ q.capacity) : Settled q {} := by
  have rep := (LockFreeQueue.represents_new made two).1
  have counts : q.enqueueCount = 0 ∧ q.dropCount = 0 := by
    simp only [newLockFreeQueue] at made
    split at made
    · cases made
    · cases made
      exact ⟨rfl, rfl⟩
  exact ⟨_, 0, [], rep, rfl, counts.1, counts.2⟩

variable (settled : Settled q ledger)
include settled

/-- A publication to a queue that has room, or that refuses when it has none. -/
theorem offer (notOnFull : q.dropPolicy = .dropOldest → q.isFull = false) (message : M) :
    ((q.offer message).2 ≠ .full ∧ q.Stores (q.offer message).1 message ∧
        Settled (q.offer message).1 (ledger.publication message none)) ∨
      ((q.offer message).2 = .full ∧
        ∀ err, Settled (q.offer message).1 (ledger.publication message (some err))) := by
  obtain ⟨e, head, held, rep, accepted, enqueued, dropped⟩ := settled
  by_cases room : held.length < 2 ^ e
  · obtain ⟨-, after, -, -⟩ := rep.enqueue_room room (some message)
    obtain ⟨count, drops⟩ := rep.enqueue_counts room (some message)
    obtain ⟨sequence, data⟩ := after.holds.full held.length (some message) (by simp)
    rw [rep.offer_room room]
    refine .inl ⟨by simp, ⟨?_, ?_, ?_⟩, e, head, _, after, ?_, ?_, ?_⟩
    · rw [after.enqueuePos, rep.enqueuePos, word_succ, List.length_append, List.length_singleton,
        Nat.add_assoc]
    · rw [LockFreeQueue.sequence, rep.enqueuePos, after.shape.index, sequence, word_succ]
    · rw [LockFreeQueue.data, rep.enqueuePos, after.shape.index, data]
    · simp [Ledger.publication, accepted]
    · rw [count, enqueued, word_succ]
      simp [Ledger.publication]
    · rw [drops, dropped]
      rfl
  · have full : held.length = 2 ^ e := Nat.le_antisymm rep.holds.bounded (Nat.le_of_not_lt room)
    have policy : q.dropPolicy ≠ .dropOldest := fun drops =>
      room ((DropOldest.isFull_iff rep).mp (notOnFull drops))
    rw [rep.offer_full full policy]
    refine .inr ⟨rfl, fun err => ⟨e, head, held, rep.addDropCount, accepted, enqueued, ?_⟩⟩
    change q.dropCount + 1 = _
    rw [dropped, word_succ]
    simp [Ledger.publication]

theorem dequeue : Settled q.dequeue.1 (ledger.handOut q.dequeue.2.1 q.dequeue.2.2) := by
  obtain ⟨e, head, held, rep, accepted, enqueued, dropped⟩ := settled
  cases held with
  | nil =>
    rw [rep.dequeue_nil]
    exact ⟨e, head, [], rep, accepted, enqueued, dropped⟩
  | cons x rest =>
    obtain ⟨answer, after, -, -⟩ := rep.dequeue_cons
    obtain ⟨count, drops⟩ := rep.dequeue_counts
    rw [answer]
    refine ⟨e, head + 1, rest, after, ?_, count.trans enqueued, drops.trans dropped⟩
    simp [Ledger.handOut, accepted]

/-- A full queue that drops the oldest loses the message and answers nil. -/
theorem offer_lost (policy : q.dropPolicy = .dropOldest) (full : q.isFull = true)
    (message : M) : (q.offer message).2 ≠ .full ∧ ¬ q.Stores (q.offer message).1 message := by
  obtain ⟨e, head, held, rep, -⟩ := settled
  have noRoom : ¬ held.length < 2 ^ e := by
    rw [← DropOldest.isFull_iff rep, full]
    simp
  obtain ⟨outcome, samePos⟩ :=
    rep.offer_lost (Nat.le_antisymm rep.holds.bounded (Nat.le_of_not_lt noRoom)) policy message
  refine ⟨by simp [outcome], ?_⟩
  intro stores
  have advanced := stores.advanced
  rw [samePos] at advanced
  simp at advanced

end Settled

variable [DecidableEq M]

def booked : Object (MessageBus M × (Level → Ledger M)) (Call M) (Answer M) :=
  object.tracking fun bus call books =>
    update books (bus.target call) ((books (bus.target call)).post call (object.apply bus call).2)

/-- A publication that is answered with nil has put its message into the queue that
    its priority selects. -/
def Placed (bus : MessageBus M) (call : Call M) : Prop :=
  ∀ message ∈ call.message?, (object.apply bus call).2 = .published none →
    (bus.queue (bus.target call)).Stores ((object.apply bus call).1.queue (bus.target call)) message

/-- Every publication that succeeds places its message, and the accounts of every
    queue are balanced after every call. -/
structure Accounts (bus : MessageBus M) (calls : List (Call M)) : Prop where
  placed : object.Along Placed bus calls
  balanced : ∀ first later, calls = first ++ later → ∀ level,
    Balanced ((booked.run (bus, fun _ => {}) first).1.1.queue level)
      ((booked.run (bus, fun _ => {}) first).1.2 level)

variable {bus : MessageBus M} {call : Call M}

/-- A publication changes the queue it selects, by an offer, and no other. -/
theorem apply_publication (running : bus.running = true)
    (publishes : call.message? = some message) : (object.apply bus call).1.running = true ∧
      (∀ level, (object.apply bus call).1.queue level =
        if level = bus.target call then ((bus.queue level).offer message).1 else bus.queue level) ∧
      ∃ err, (object.apply bus call).2 = .published err ∧
        (err = none ↔ ((bus.queue (bus.target call)).offer message).2 ≠ .full) := by
  cases call with
  | processFromQueue level => cases publishes
  | publish sent =>
    cases publishes
    simp only [object, publish, running, Bool.true_eq_false, if_false, target]
    refine ⟨?_, ?_, _, rfl, ?_⟩
    · split <;> simp [running_route, running]
    · intro level
      split
      · exact (queue_notifyWorkers _ _).trans (queue_route ..)
      · exact queue_route ..
    · rw [errorOf_eq_none, outcome_route]
  | publishToPriority sent priority =>
    cases publishes
    simp only [object, publishToPriority, running, Bool.true_eq_false, if_false, target]
    refine ⟨?_, ?_, _, rfl, ?_⟩
    · simp [running_route, running]
    · intro level
      have routed := queue_route (bus.setPriority message priority) message priority level
      rw [queue_setPriority] at routed
      exact routed
    · rw [errorOf_eq_none, outcome_route, queue_setPriority]

/-- The bus runs and the accounts of every queue are settled. -/
structure InOrder (s : MessageBus M × (Level → Ledger M)) : Prop where
  running : s.1.running = true
  settled : ∀ level, Settled (s.1.queue level) (s.2 level)

omit [DecidableEq M] in
theorem post_publication (ledger : Ledger M) (publishes : call.message? = some message)
    (err : Option PortaskError) :
    ledger.post call (.published err) = ledger.publication message err := by
  cases call with
  | processFromQueue level => cases publishes
  | publish sent | publishToPriority sent priority =>
    cases publishes
    rfl

variable {books : Level → Ledger M}

section

variable (inOrder : InOrder (bus, books))
include inOrder

theorem InOrder.step (notOnFull : NotOnFull bus call) :
    Placed bus call ∧ InOrder (booked.apply (bus, books) call).1 := by
  cases publishes : call.message? with
  | none =>
    cases call with
    | publish | publishToPriority => cases publishes
    | processFromQueue level =>
      refine ⟨by simp [Placed, publishes], ?_, ?_⟩
      · simpa [booked, Object.tracking, object, processFromQueue] using inOrder.running
      · intro other
        simp only [booked, Object.tracking, object, processFromQueue, target, queue_setQueue, update_apply]
        split
        · next here =>
            subst here
            exact (inOrder.settled other).dequeue
        · exact inOrder.settled other
  | some message =>
    obtain ⟨running, queues, err, answer, accepted⟩ := apply_publication inOrder.running publishes
    have here := queues (bus.target call)
    rw [if_pos rfl] at here
    have offered :=
      (inOrder.settled (bus.target call)).offer (notOnFull (by simp [publishes])) message
    have settles : Settled ((bus.queue (bus.target call)).offer message).1
        ((books (bus.target call)).publication message err) := by
      obtain ⟨taken, -, settled⟩ | ⟨refused, settled⟩ := offered
      · rw [accepted.mpr taken]
        exact settled
      · cases err with
        | none => exact absurd refused (accepted.mp rfl)
        | some err => exact settled err
    refine ⟨?_, running, ?_⟩
    · intro sent isSent nil
      obtain rfl : message = sent := Option.some.inj (publishes.symm.trans isSent)
      rw [answer, Answer.published.injEq] at nil
      rw [here]
      obtain ⟨-, stores, -⟩ | ⟨refused, -⟩ := offered
      · exact stores
      · exact absurd refused (accepted.mp nil)
    · intro other
      simp only [booked, Object.tracking, queues, update_apply, answer, post_publication _ publishes]
      split
      · subst_vars
        exact settles
      · exact inOrder.settled other

/-- A publication that places its message did not find a full queue that drops the oldest. -/
theorem InOrder.notOnFull (placed : Placed bus call) : NotOnFull bus call := by
  intro publication policy
  obtain ⟨message, publishes⟩ := Option.isSome_iff_exists.mp publication
  by_contra full
  obtain ⟨-, queues, err, answer, accepted⟩ := apply_publication inOrder.running publishes
  obtain ⟨taken, unstored⟩ :=
    (inOrder.settled (bus.target call)).offer_lost policy
      (Bool.eq_true_of_not_eq_false full) message
  have stores := placed message publishes (by rw [answer, accepted.mpr taken])
  rw [queues, if_pos rfl] at stores
  exact unstored stores

theorem InOrder.along_notOnFull
    (placed : object.Along Placed bus calls) : object.Along NotOnFull bus calls :=
  Object.along_of_invariant (P := fun bus => ∃ books, InOrder (bus, books))
    (fun _ _ ⟨_, inOrder⟩ placed =>
      ⟨inOrder.notOnFull placed, _, (inOrder.step (inOrder.notOnFull placed)).2⟩)
    ⟨books, inOrder⟩ placed

end

omit [DecidableEq M] in
theorem inOrder_new {config messages} (made : newMessageBus config messages = some bus)
    (two : ∀ level, 2 ≤ (bus.queue level).capacity) : InOrder (bus.start.1, fun _ => {}) := by
  simp only [newMessageBus, Option.bind_eq_bind, Option.bind_eq_some_iff, Option.pure_def] at made
  obtain ⟨high, madeHigh, normal, madeNormal, low, madeLow, made⟩ := made
  cases made
  refine ⟨rfl, ?_⟩
  intro level
  cases level with
  | high => exact .new madeHigh (two .high)
  | normal => exact .new madeNormal (two .normal)
  | low => exact .new madeLow (two .low)

/-- The bus keeps its accounts on a run exactly when no publication of the run meets
    a full queue that drops the oldest. -/
theorem accounts_iff {config : MessageBusConfig} {messages : M → BusMessage} {bus : MessageBus M}
    (made : newMessageBus config messages = some bus)
    (two : ∀ level, 2 ≤ (bus.queue level).capacity)
    (calls : List (Call M)) : Accounts bus.start.1 calls ↔
      object.Along NotOnFull bus.start.1 calls := by
  have start := inOrder_new made two
  constructor
  · intro accounts
    exact start.along_notOnFull accounts.placed
  · intro along
    refine ⟨?_, ?_⟩
    · exact Object.along_of_invariant (P := fun bus => ∃ books, InOrder (bus, books))
        (fun _ _ ⟨_, inOrder⟩ notOnFull => ⟨(inOrder.step notOnFull).1, _, (inOrder.step notOnFull).2⟩)
        ⟨_, start⟩ along
    · rintro first later rfl level
      have before := (Object.along_append.mp along).1
      have inOrder : InOrder (booked.run (bus.start.1, fun _ => {}) first).1 :=
        Object.run_invariant (fun _ _ inOrder notOnFull => (inOrder.step notOnFull).2) start
          (Object.along_tracking.mpr before)
      exact (inOrder.settled level).balanced

/-- Two slots at every level, and the oldest message is dropped. -/
def twoSlotConfig : MessageBusConfig where
  highPriorityQueueSize := 2
  normalPriorityQueueSize := 2
  lowPriorityQueueSize := 2
  dropPolicy := .dropOldest

/-- Messages of normal priority, named by numbers. -/
def normalMessages : Nat → BusMessage := fun _ => { priority := priorityNormal, size := 128 }

/-- The bus that `NewMessageBus` makes of them. -/
def twoSlotBus : MessageBus Nat where
  highPriorityQueue := { DropOldest.twoSlots with name := "high-priority" }
  normalPriorityQueue := { DropOldest.twoSlots with name := "normal-priority" }
  lowPriorityQueue := { DropOldest.twoSlots with name := "low-priority" }
  totalMessages := 0
  totalBytes := 0
  running := false
  workerNotify := 0
  messages := normalMessages

theorem twoSlotBus_made :
    newMessageBus twoSlotConfig normalMessages = some twoSlotBus ∧
      ∀ level, 2 ≤ (twoSlotBus.queue level).capacity := by
  refine ⟨by rfl, fun level => ?_⟩
  cases level <;> decide

theorem accounts_iff_drained :
    newMessageBus twoSlotConfig normalMessages = some twoSlotBus ∧
      (∀ level, 2 ≤ (twoSlotBus.queue level).capacity) ∧
      Accounts twoSlotBus.start.1
        [.publish 1, .publishToPriority 2 priorityHigh, .publish 3, .processFromQueue .normal, .publish 4] := by
  obtain ⟨made, two⟩ := twoSlotBus_made
  exact ⟨made, two, (accounts_iff made two _).mpr (by decide +kernel)⟩

/-- The third message is accepted and nowhere to be found. -/
theorem not_accounts_full :
    newMessageBus twoSlotConfig normalMessages = some twoSlotBus ∧
      (∀ level, 2 ≤ (twoSlotBus.queue level).capacity) ∧
      ¬ Accounts twoSlotBus.start.1 [.publish 1, .publish 2, .publish 3] := by
  obtain ⟨made, two⟩ := twoSlotBus_made
  refine ⟨made, two, ?_⟩
  intro accounts
  have along := (inOrder_new made two).along_notOnFull accounts.placed
  revert along
  decide +kernel

end MessageBus

end Portask.Queue
