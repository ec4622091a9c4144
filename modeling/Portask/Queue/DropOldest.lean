import Portask.Queue.LockFreeSequential

/-! # The drop-oldest policy under one caller

A queue with policy `DropOldest` is meant to keep the newest messages. It does so
exactly as long as plain `Enqueue` is never called on a full queue: there it gives
up after all its retries, having moved `dequeuePos` past the oldest message without
storing the new one. `tryForceEnqueueDropOldest`, which dequeues first, is right in
every state that is reached without such a call.
-/

namespace Portask.Queue

open Lib Lib.Ring

namespace DropOldest

variable {M : Type}

inductive Call (M : Type) where
  | enqueue (item : Option M)
  | dequeue
  | tryForceEnqueueDropOldest (item : Option M)
  deriving DecidableEq

inductive Answer (M : Type) where
  | accepted (ok : Bool)
  | taken (item : Option M) (ok : Bool)
  deriving DecidableEq

def queue : Object (LockFreeQueue M) (Call M) (Answer M) where
  apply q
    | .enqueue item => ((q.enqueue item).1, .accepted (q.enqueue item).2)
    | .dequeue => (q.dequeue.1, .taken q.dequeue.2.1 q.dequeue.2.2)
    | .tryForceEnqueueDropOldest item =>
      ((q.tryForceEnqueueDropOldest item).1, .accepted (q.tryForceEnqueueDropOldest item).2)

/-- The queue of the newest `bound` messages. Forcing drops the oldest, if any,
    before it adds. -/
def newest (bound : Nat) : Object (List (Option M)) (Call M) (Answer M) where
  apply held
    | .enqueue item => (Fifo.offerNewest bound held item, .accepted true)
    | .dequeue =>
      match held with
      | [] => ([], .taken none false)
      | x :: rest => (rest, .taken x true)
    | .tryForceEnqueueDropOldest item => (held.tail ++ [item], .accepted true)

/-- `dequeuePos` stays or advances by one. -/
def Advances (q : LockFreeQueue M) (call : Call M) : Prop :=
  (queue.apply q call).1.dequeuePos = q.dequeuePos ∨
    (queue.apply q call).1.dequeuePos = q.dequeuePos + 1

/-- The call is not a plain `Enqueue` on a full queue. -/
def NotOnFull (q : LockFreeQueue M) : Call M → Prop
  | .enqueue _ => q.isFull = false
  | .dequeue | .tryForceEnqueueDropOldest _ => True

instance (q : LockFreeQueue M) : ∀ call, Decidable (NotOnFull q call)
  | .enqueue _ => inferInstanceAs (Decidable (q.isFull = false))
  | .dequeue | .tryForceEnqueueDropOldest _ => .isTrue trivial

/-- The run answers as the queue of the newest messages does, `dequeuePos` never
    moves back, and the state reached still gives out what it holds and takes what
    fits. -/
structure KeepsNewest (bound : Nat) (q : LockFreeQueue M) (calls : List (Call M)) : Prop where
  answers : (queue.run q calls).2 = ((newest bound).run [] calls).2
  advances : queue.Along Advances q calls
  drains : ∀ x rest, ((newest bound).run [] calls).1 = x :: rest →
    (queue.run q calls).1.dequeue.2 = (x, true)
  accepts : ∀ item, ((newest bound).run [] calls).1.length < bound →
    ((queue.run q calls).1.enqueue item).2 = true

variable {q : LockFreeQueue M} {e head : Nat} {held : List (Option M)}

section

variable (rep : q.Represents e head held)
include rep

theorem isFull_iff : q.isFull = false ↔ held.length < 2 ^ e := by
  simp only [LockFreeQueue.isFull, decide_eq_false_iff_not, Int64.le_iff_toInt_le, rep.size_eq,
    rep.shape.capacity]
  exact_mod_cast Nat.not_le

variable (policy : q.dropPolicy = .dropOldest)
include policy

/-- One call, unless it is `Enqueue` on a full queue, follows the abstract queue. -/
theorem step (call : Call M)
    (room : NotOnFull q call) : (queue.apply q call).2 = ((newest (2 ^ e)).apply held call).2 ∧
      Advances q call ∧ (queue.apply q call).1.dropPolicy = .dropOldest ∧
      ∃ head', (queue.apply q call).1.Represents e head' ((newest (2 ^ e)).apply held call).1 := by
  cases call with
  | enqueue item =>
    have space := (isFull_iff rep).mp room
    obtain ⟨ok, after, samePolicy, samePos⟩ := rep.enqueue_room space item
    simp only [queue, newest, Advances, Fifo.offerNewest, if_pos space]
    exact ⟨by rw [ok], .inl samePos, samePolicy.trans policy, head, after⟩
  | dequeue =>
    cases held with
    | nil =>
      simp only [queue, newest, Advances, rep.dequeue_nil]
      exact ⟨trivial, .inl trivial, policy, head, rep⟩
    | cons x rest =>
      obtain ⟨answer, after, samePolicy, nextPos⟩ := rep.dequeue_cons
      simp only [queue, newest, Advances]
      exact ⟨by rw [answer], .inr nextPos, samePolicy.trans policy, head + 1, after⟩
  | tryForceEnqueueDropOldest item =>
    have positive := Nat.two_pow_pos e
    have bounded := rep.holds.bounded
    simp only [queue, newest, Advances, LockFreeQueue.tryForceEnqueueDropOldest, policy, ne_eq,
      not_true_eq_false, if_false]
    cases held with
    | nil =>
      rw [rep.dequeue_nil]
      obtain ⟨ok, after, samePolicy, samePos⟩ := rep.enqueue_room positive item
      exact ⟨by rw [ok], .inl samePos, samePolicy.trans policy, head, after⟩
    | cons x rest =>
      obtain ⟨answer, middle, middlePolicy, nextPos⟩ := rep.dequeue_cons
      have space : rest.length < 2 ^ e := Nat.lt_of_succ_le (by simpa using bounded)
      obtain ⟨ok, after, samePolicy, samePos⟩ := middle.enqueue_room space item
      exact ⟨by rw [ok], .inr (samePos.trans nextPos),
        (samePolicy.trans middlePolicy).trans policy, head + 1, after⟩

/-- `Enqueue` on a full queue refuses, where the newest messages should be kept. -/
theorem enqueue_refused
    (full : ¬ held.length < 2 ^ e) (item : Option M) : (q.enqueue item).2 = false := by
  obtain ⟨notReady, behind⟩ :=
    rep.enqueue_full (Nat.le_antisymm rep.holds.bounded (Nat.le_of_not_lt full))
  rw [LockFreeQueue.enqueue_gives_up item policy notReady behind]

theorem run_follows (calls : List (Call M)) (rooms : queue.Along NotOnFull q calls) :
    (queue.run q calls).2 = ((newest (2 ^ e)).run held calls).2 ∧ queue.Along Advances q calls ∧
      ∃ head', (queue.run q calls).1.Represents e head' ((newest (2 ^ e)).run held calls).1 := by
  induction calls generalizing q head held with
  | nil => exact ⟨rfl, trivial, head, rep⟩
  | cons call rest ih =>
    obtain ⟨room, later⟩ := rooms
    obtain ⟨answer, advance, samePolicy, head', after⟩ := step rep policy call room
    obtain ⟨answers, advances, final⟩ := ih after samePolicy later
    simp only [Object.run_cons]
    exact ⟨by rw [answer, answers], ⟨advance, advances⟩, final⟩

/-- The first `Enqueue` on a full queue already answers differently. -/
theorem rooms_of_answers
    (calls : List (Call M)) (same : (queue.run q calls).2 = ((newest (2 ^ e)).run held calls).2) :
    queue.Along NotOnFull q calls := by
  induction calls generalizing q head held with
  | nil => trivial
  | cons call rest ih =>
    simp only [Object.run_cons] at same
    obtain ⟨answer, answers⟩ := List.cons.inj same
    have room : NotOnFull q call := by
      cases call with
      | dequeue | tryForceEnqueueDropOldest => trivial
      | enqueue item =>
        by_contra full
        rw [NotOnFull, isFull_iff rep] at full
        simp [queue, newest, enqueue_refused rep policy full item] at answer
    obtain ⟨-, -, samePolicy, head', after⟩ := step rep policy call room
    exact ⟨room, ih after samePolicy answers⟩

end

/-- The policy keeps its promise on a run exactly when no `Enqueue` of the run
    finds the queue full. -/
theorem keepsNewest_iff {name : String} {capacity : Int64} {q : LockFreeQueue M}
    (made : newLockFreeQueue name capacity .dropOldest = some q) (two : 2 ≤ q.capacity)
    (calls : List (Call M)) :
    KeepsNewest q.capacity.toNatClampNeg q calls ↔ queue.Along NotOnFull q calls := by
  obtain ⟨rep, policy⟩ := LockFreeQueue.represents_new made two
  have bound : q.capacity.toNatClampNeg = 2 ^ Nat.clog 2 capacity.toUInt64.toNat := by
    have value := rep.shape.capacity
    rw [← Int64.cast_toNatClampNeg _ (Int64.le_trans (by decide) two)] at value
    exact_mod_cast value
  rw [bound]
  constructor
  · intro keeps
    exact rooms_of_answers rep policy calls keeps.answers
  · intro along
    obtain ⟨answers, advances, head, final⟩ := run_follows rep policy calls along
    refine ⟨answers, advances, ?_, ?_⟩
    · intro x rest held
      rw [held] at final
      exact final.dequeue_cons.1
    · intro item space
      exact (final.enqueue_room space item).1

/-- A queue of two slots, as `NewLockFreeQueue` makes it. -/
def twoSlots : LockFreeQueue Nat where
  mask := 1
  buffer := [⟨0, none⟩, ⟨1, none⟩]
  enqueuePos := 0
  dequeuePos := 0
  enqueueCount := 0
  dequeueCount := 0
  dropCount := 0
  name := "high-priority"
  capacity := 2
  dropPolicy := .dropOldest

theorem keepsNewest_iff_forced :
    newLockFreeQueue "high-priority" 2 .dropOldest = some twoSlots ∧ 2 ≤ twoSlots.capacity ∧
      KeepsNewest 2 twoSlots
        [.enqueue (some 1), .enqueue (some 2), .tryForceEnqueueDropOldest (some 3), .dequeue] := by
  have made : newLockFreeQueue "high-priority" 2 .dropOldest = some twoSlots := by decide
  have two : 2 ≤ twoSlots.capacity := by decide
  exact ⟨made, two, (keepsNewest_iff made two _).mpr (by decide +kernel)⟩

/-- The third `Enqueue` is refused and the oldest message is lost all the same. -/
theorem not_keepsNewest_full :
    newLockFreeQueue "high-priority" 2 .dropOldest = some twoSlots ∧
      ¬ KeepsNewest 2 twoSlots
        [.enqueue (some 1), .enqueue (some 2), .enqueue (some 3), .dequeue] := by
  refine ⟨by decide, ?_⟩
  intro keeps
  have answers := keeps.answers
  revert answers
  decide +kernel

end DropOldest

end Portask.Queue
