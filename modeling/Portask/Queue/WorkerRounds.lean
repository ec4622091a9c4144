import Portask.Lib.GoString
import Portask.Queue.MessageBus

/-! # A worker's turn through all queues

`megaProcessAllAvailableMessages` with nobody else at work. What the processor returns only goes into the statistics of
the worker, which are left out.
-/

namespace Portask.Queue

open Function Lib

inductive QueueName where
  | priority (level : Level)
  | topic (name : GoString)
  deriving DecidableEq

/-- The queues of the bus, and what the processor was handed so far, with the queue it came from. -/
structure Worker (M : Type) where
  queues : QueueName → LockFreeQueue M
  handed : List (QueueName × Option M)

namespace Worker

variable {M : Type}

def processFromQueue (w : Worker M) (name : QueueName) : Worker M × Bool :=
  let (q, message, ok) := (w.queues name).dequeue
  (⟨update w.queues name q, if ok then w.handed ++ [(name, message)] else w.handed⟩, ok)

/-- Up to `n` messages of one queue, and whether there was any. -/
def batch (name : QueueName) : Nat → Worker M → Worker M × Bool
  | 0, w => (w, false)
  | n + 1, w =>
    let (w, ok) := w.processFromQueue name
    if ok then ((batch name n w).1, true) else (w, false)

def visit : List (QueueName × Nat) → Worker M → Worker M × Bool
  | [], w => (w, false)
  | (name, n) :: rest, w =>
    let (w, first) := batch name n w
    let (w, later) := visit rest w
    (w, first || later)

def queuesInTurn (topics : List GoString) : List (QueueName × Nat) :=
  [(.priority .high, 50), (.priority .normal, 100), (.priority .low, 25)] ++ topics.map fun name =>
    (.topic name, 50)

/-- The outer loop with `n` batches to go; `orders` tells how the topic queues are visited in each. -/
def batches (orders : Nat → List GoString) : Nat → Worker M → Worker M × Bool
  | 0, w => (w, false)
  | n + 1, w =>
    let (w, batchProcessed) := visit (queuesInTurn (orders n)) w
    if batchProcessed then ((batches orders n w).1, true) else (w, false)

def megaProcessAllAvailableMessages (orders : Nat → List GoString) (w : Worker M) :
    Worker M × Bool :=
  batches orders 100 w

def handedFrom (w : Worker M) (name : QueueName) : List (Option M) :=
  (w.handed.filter (·.1 = name)).map Prod.snd

def Holding (w : Worker M) (held : QueueName → List (Option M)) : Prop :=
  ∀ name, ∃ e head, (w.queues name).Represents e head (held name)

/-- The first messages of each queue were handed out in order, as many as `taken` says, and the others are left. -/
structure Took (w after : Worker M) (held : QueueName → List (Option M)) (taken : QueueName → Nat) :
    Prop where
  holding : after.Holding fun name => (held name).drop (taken name)
  handed : ∀ name, after.handedFrom name = w.handedFrom name ++ (held name).take (taken name)

variable {w mid after : Worker M} {held : QueueName → List (Option M)}
  {taken more : QueueName → Nat}

theorem Took.nothing (holding : w.Holding held) : Took w w held fun _ => 0 :=
  ⟨by simpa using holding, by simp⟩

theorem Took.trans (first : Took w mid held taken)
    (later : Took mid after (fun name => (held name).drop (taken name)) more) :
    Took w after held fun name => taken name + more name where
  holding := by simpa [List.drop_drop] using later.holding
  handed name := by rw [later.handed, first.handed, List.append_assoc, List.take_add]

/-- Beyond the end of a queue the number makes no difference. -/
theorem Took.congr (took : Took w after held taken)
    (same : ∀ name, held name = [] ∨ taken name = more name) : Took w after held more where
  holding name := by
    rcases same name with empty | same
    · simpa [empty] using took.holding name
    · simpa [same] using took.holding name
  handed name := by
    rcases same name with empty | same
    · simpa [empty] using took.handed name
    · simpa [same] using took.handed name

theorem took_processFromQueue (holding : w.Holding held) (name : QueueName) :
    Took w (w.processFromQueue name).1 held (fun other => if other = name then 1 else 0) ∧
      ((w.processFromQueue name).2 = true ↔ held name ≠ []) := by
  obtain ⟨e, head, rep⟩ := holding name
  cases front : held name with
  | nil =>
    rw [front] at rep
    have same : (w.processFromQueue name).1 = w := by simp [processFromQueue, rep.dequeue_nil]
    refine ⟨?_, by simp [processFromQueue, rep.dequeue_nil]⟩
    rw [same]
    refine (Took.nothing holding).congr fun other => ?_
    by_cases here : other = name
    · exact .inl (here ▸ front)
    · exact .inr (by simp [here])
  | cons x rest =>
    rw [front] at rep
    obtain ⟨answer, left, -, -⟩ := rep.dequeue_cons
    have ok : (w.queues name).dequeue.2.2 = true := by rw [answer]
    have item : (w.queues name).dequeue.2.1 = x := by rw [answer]
    refine ⟨⟨fun other => ?_, fun other => ?_⟩, by simp [processFromQueue, ok]⟩
    · by_cases here : other = name
      · subst here
        exact ⟨e, head + 1, by simpa [processFromQueue, front] using left⟩
      · simpa [processFromQueue, here] using holding other
    · by_cases here : other = name
      · subst here
        simp [processFromQueue, handedFrom, ok, item, front]
      · simp [processFromQueue, handedFrom, ok, here, Ne.symm here]

theorem took_batch (name : QueueName) (n : Nat) (holding : w.Holding held) :
    Took w (batch name n w).1 held (fun other => if other = name then n else 0) ∧
      ((batch name n w).2 = true ↔ n ≠ 0 ∧ held name ≠ []) := by
  induction n generalizing w held with
  | zero => exact ⟨by simpa [batch] using Took.nothing holding, by simp [batch]⟩
  | succ n ih =>
    obtain ⟨first, any⟩ := took_processFromQueue holding name
    by_cases ok : (w.processFromQueue name).2 = true
    · simp only [batch, ok, if_true]
      refine ⟨?_, by simpa using any.mp ok⟩
      refine (first.trans (ih first.holding).1).congr fun other => .inr ?_
      by_cases here : other = name <;> simp [here, Nat.add_comm]
    · simp only [batch, ok]
      have empty : held name = [] := by simpa using mt any.mpr ok
      refine ⟨first.congr fun other => ?_, by simp [empty]⟩
      by_cases here : other = name
      · exact .inl (here ▸ empty)
      · exact .inr (by simp [here])

theorem took_visit (entries : List (QueueName × Nat)) (holding : w.Holding held) :
    Took w (visit entries w).1 held
    (fun name => (entries.map fun entry => if name = entry.1 then entry.2 else 0).sum) ∧
      ((visit entries w).2 = true ↔ ∃ entry ∈ entries, entry.2 ≠ 0 ∧ held entry.1 ≠ []) := by
  induction entries generalizing w held with
  | nil => exact ⟨by simpa [visit] using Took.nothing holding, by simp [visit]⟩
  | cons entry rest ih =>
    obtain ⟨first, any⟩ := took_batch entry.1 entry.2 holding
    obtain ⟨later, anyLater⟩ := ih first.holding
    refine ⟨by simpa [visit] using first.trans later, ?_⟩
    rw [visit, Bool.or_eq_true, any, anyLater]
    constructor
    · rintro (here | ⟨other, inside, some, left⟩)
      · exact ⟨entry, List.mem_cons_self, here⟩
      · exact ⟨other, List.mem_cons_of_mem _ inside, some, fun empty => left (by simp [empty])⟩
    · rintro ⟨other, inside, some, left⟩
      rcases List.mem_cons.mp inside with rfl | inside
      · exact .inl ⟨some, left⟩
      · by_cases spent : other.1 = entry.1 ∧ entry.2 ≠ 0
        · exact .inl ⟨spent.2, spent.1 ▸ left⟩
        · have untouched : (if other.1 = entry.1 then entry.2 else 0) = 0 := by grind
          exact .inr ⟨other, inside, some, by simpa [untouched] using left⟩

def perBatch (topics : List GoString) : QueueName → Nat
  | .priority .high => 50
  | .priority .normal => 100
  | .priority .low => 25
  | .topic name => if name ∈ topics then 50 else 0

def perCall (topics : List GoString) : QueueName → Nat
  | .priority .high => 5000
  | .priority .normal => 10000
  | .priority .low => 2500
  | .topic name => if name ∈ topics then 5000 else 0

theorem sum_topics (name : GoString) (topics : List GoString) :
    (topics.map fun topic => if name = topic then 50 else 0).sum = 50 * topics.count name := by
  induction topics with
  | nil => rfl
  | cons topic topics ih =>
    rw [List.map_cons, List.sum_cons, ih]
    by_cases here : name = topic
    · subst here
      rw [if_pos rfl, List.count_cons_self]
      omega
    · rw [if_neg here, List.count_cons_of_ne (Ne.symm here), Nat.zero_add]

theorem took_queuesInTurn (distinct : topics.Nodup) (all : order.Perm topics)
    (holding : w.Holding held) :
    Took w (visit (queuesInTurn order) w).1 held (perBatch topics) ∧
      ((visit (queuesInTurn order) w).2 = true ↔ ∃ name, perBatch topics name ≠ 0 ∧ held name ≠ []) := by
  obtain ⟨took, any⟩ := took_visit (queuesInTurn order) holding
  refine ⟨took.congr fun name => .inr ?_, any.trans ?_⟩
  · cases name with
    | priority level => cases level <;> simp [queuesInTurn, perBatch, comp_def]
    | topic name =>
      have once : order.count name = if name ∈ topics then 1 else 0 := by
        rw [all.count_eq]
        exact distinct.count
      simp only [queuesInTurn, perBatch, List.map_append, List.sum_append, List.map_map, comp_def,
        QueueName.topic.injEq, sum_topics, once]
      simp
  · constructor
    · rintro ⟨entry, inside, -, left⟩
      refine ⟨entry.1, ?_, left⟩
      simp only [queuesInTurn, List.mem_append, List.mem_cons, List.mem_map, List.not_mem_nil,
        or_false] at inside
      rcases inside with (rfl | rfl | rfl) | ⟨name, among, rfl⟩
      · simp [perBatch]
      · simp [perBatch]
      · simp [perBatch]
      · simp [perBatch, all.mem_iff.mp among]
    · rintro ⟨name, visited, left⟩
      have inside : (name, perBatch topics name) ∈ queuesInTurn order := by
        rcases name with (_ | _ | _) | name
        · simp [queuesInTurn, perBatch]
        · simp [queuesInTurn, perBatch]
        · simp [queuesInTurn, perBatch]
        · simp only [perBatch, ne_eq, ite_eq_right_iff, Classical.not_imp] at visited
          simp [queuesInTurn, perBatch, visited.1, all.mem_iff]
      exact ⟨_, inside, visited, left⟩

theorem took_batches (distinct : topics.Nodup) (all : ∀ n, (orders n).Perm topics) (n : Nat)
    (holding : w.Holding held) :
    Took w (batches orders n w).1 held (fun name => n * perBatch topics name) ∧
      ((batches orders n w).2 = true ↔ n ≠ 0 ∧ ∃ name, perBatch topics name ≠ 0 ∧ held name ≠ []) := by
  induction n generalizing w held with
  | zero => exact ⟨by simpa [batches] using Took.nothing holding, by simp [batches]⟩
  | succ n ih =>
    obtain ⟨first, any⟩ := took_queuesInTurn distinct (all n) holding
    by_cases ok : (visit (queuesInTurn (orders n)) w).2 = true
    · simp only [batches, ok, if_true]
      refine ⟨(first.trans (ih first.holding).1).congr fun name => .inr ?_, ?_⟩
      · rw [Nat.succ_mul, Nat.add_comm]
      · simp only [ne_eq, Nat.add_one_ne_zero, not_false_eq_true, true_and, true_iff]
        exact any.mp ok
    · -- the loop ends early only when every queue is empty, and then nothing is missed
      have none : ∀ name, perBatch topics name ≠ 0 → held name = [] := by simpa using mt any.mpr ok
      have stops : batches orders (n + 1) w = ((visit (queuesInTurn (orders n)) w).1, false) := by
        simp only [batches, ok, Bool.false_eq_true, if_false]
      simp only [stops]
      have same (name) : held name = [] ∨ perBatch topics name = (n + 1) * perBatch topics name := by
        by_cases visited : perBatch topics name = 0
        · exact .inr (by rw [visited, Nat.mul_zero])
        · exact .inl (none name visited)
      refine ⟨first.congr same, ?_⟩
      simp only [Bool.false_eq_true, false_iff]
      rintro ⟨-, name, visited, left⟩
      exact left (none name visited)

/-- One call hands out the first messages of every queue in order, up to the limit of the queue, and leaves the rest; it
returns true if and only if there was a message. -/
theorem every_queue_served {topics : List GoString} (distinct : topics.Nodup)
    (orders : Nat → List GoString)
    (all : ∀ n, (orders n).Perm topics) (queues : QueueName → LockFreeQueue M)
    (held : QueueName → List (Option M)) (holding : Holding ⟨queues, []⟩ held) :
    (∀ name, (megaProcessAllAvailableMessages orders ⟨queues, []⟩).1.handedFrom name =
        (held name).take (perCall topics name) ∧
      ∃ e head, ((megaProcessAllAvailableMessages orders ⟨queues, []⟩).1.queues name).Represents e head
        ((held name).drop (perCall topics name))) ∧
    ((megaProcessAllAvailableMessages orders ⟨queues, []⟩).2 = true ↔
      ∃ name, perCall topics name ≠ 0 ∧ held name ≠ []) := by
  have hundred (name) : 100 * perBatch topics name = perCall topics name := by
    rcases name with (_ | _ | _) | name
    · rfl
    · rfl
    · rfl
    · simp only [perBatch, perCall]
      split <;> rfl
  obtain ⟨took, any⟩ := took_batches distinct all 100 holding
  simp only [hundred] at took
  unfold megaProcessAllAvailableMessages
  refine ⟨fun name => ⟨(took.handed name).trans (List.nil_append _), took.holding name⟩,
    any.trans ?_⟩
  simp only [← hundred, ne_eq, Nat.mul_eq_zero, OfNat.ofNat_ne_zero, not_false_eq_true,
    true_and, false_or]

theorem every_queue_served_one :
    ∃ q : LockFreeQueue Nat, newLockFreeQueue "low" 2 .dropNewest = some q ∧
      (megaProcessAllAvailableMessages (fun _ => []) ⟨fun _ => (q.enqueue (some 7)).1,
        []⟩).1.handedFrom (.priority .low) = [some 7] := by
  obtain ⟨q, made⟩ : ∃ q : LockFreeQueue Nat, newLockFreeQueue "low" 2 .dropNewest = some q :=
    ⟨_, rfl⟩
  obtain rfl := Option.some.inj made
  have rep := (LockFreeQueue.represents_new made (by decide)).1
  obtain ⟨-, rep, -⟩ := rep.enqueue_room (Nat.two_pow_pos _) (some 7)
  exact ⟨_, made, ((every_queue_served .nil (fun _ => []) (fun _ => .refl _) _ (fun _ => [some 7])
    fun _ => ⟨_, _, rep⟩).1 (.priority .low)).1⟩

end Worker

end Portask.Queue
