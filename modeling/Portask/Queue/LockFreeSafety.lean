import Portask.Queue.LockFreeThreads

/-! # Safety of the interleaved lock-free queue

Each program counter is a stake in the ring and each step one of the rules of the ring,
for the policies that leave `dequeuePos` to `Dequeue`. The two position words count the
positions claimed and taken. What the queue promises to its callers is read off that.
-/

namespace Portask.Queue.LockFreeThreads

open Function Lib Lib.Ring LockFreeQueue

variable {T M : Type}

/-- What a caller owns at a program counter. A call that gives up owns nothing more. -/
def Pc.stake : Pc M → Stake M
  | .idle | .enqueueDrop _ | .dropLoad .. | .dropCas .. => .none
  | .enqueueLoad call item _ => .seeking call item
  | .enqueueSequence call item _ pos => .reached call item pos.toNat
  | .enqueueCas call item _ pos => .ready call item pos.toNat
  | .enqueueData call item pos => .claimed call item pos.toNat
  | .enqueuePublish call item pos => .written call item pos.toNat
  | .enqueueCount call => .published call
  | .dequeueLoad call _ => .looking call
  | .dequeueSequence call _ pos => .approached call pos.toNat
  | .dequeueCas call _ pos => .sighted call pos.toNat
  | .dequeueData call pos => .taken call pos.toNat
  | .dequeueClear call pos data | .dequeueRelease call pos data => .read call pos.toNat data
  | .dequeueCount call data => .released call data

/-- The branch of `Enqueue` that moves `dequeuePos` itself. -/
def Pc.Drops : Pc M → Prop
  | .dropLoad .. | .dropCas .. => True
  | _ => False

def System.stakes (s : System T M) : T → Stake M := fun t => (s.pc t).stake

structure Inv (e : Nat) (s : System T M) : Prop where
  shape : s.queue.Shape e
  policy : s.queue.dropPolicy ≠ .dropOldest
  enqueuePos : s.queue.enqueuePos.toNat = s.log.claimed.length
  dequeuePos : s.queue.dequeuePos.toNat = s.log.taken.length
  ring : Protocol e s.queue.buffer s.log s.stakes
  noDrops : ∀ t, ¬ (s.pc t).Drops
  accepted : ∀ call, (call, true) ∈ s.returns.enqueue → Accepted s.log call
  delivered : ∀ call data, (call, data, true) ∈ s.returns.dequeue → Delivered s.log call data

variable {e : Nat}

theorem inv_initial {q : LockFreeQueue M} (shape : q.Shape e)
    (buffer : q.buffer = Ring.fresh (2 ^ e))
    (enqueuePos : q.enqueuePos = 0) (dequeuePos : q.dequeuePos = 0)
    (policy : q.dropPolicy ≠ .dropOldest) : Inv e (initial q : System T M) where
  shape := shape
  policy := policy
  enqueuePos := by simp [initial, enqueuePos]
  dequeuePos := by simp [initial, dequeuePos]
  ring := by
    simp only [initial, buffer]
    exact Protocol.fresh shape.two shape.fits
  noDrops := fun _ => id
  accepted := by simp [initial]
  delivered := by simp [initial]

variable {s : System T M}

/-- What a loaded sequence says about the slot. -/
theorem Inv.turn_of_sequence (inv : Inv e s) (found : s.queue.sequence pos = value) :
    turnAt e s.queue.buffer pos.toNat = value.toNat := by
  rw [turnAt, ← inv.shape.index_word pos, ← found]
  rfl

variable [DecidableEq T]

theorem stakes_update (s : System T M) (t : T) (q : LockFreeQueue M) (pc : Pc M) (log : Log M)
    (returns : Returns M) :
    System.stakes ⟨q, update s.pc t pc, log, returns⟩ =
      update s.stakes t pc.stake :=
  funext fun u => Function.apply_update (fun _ => Pc.stake) s.pc t pc u

variable {t : T} {s after : System T M} {here : Pc M}

/-- The invariant after a step of the caller `t`, by what it did to the ring. -/
theorem Inv.update (inv : Inv e s)
    (ring : Protocol e q.buffer log (update s.stakes t pc.stake)) (noDrop : ¬ pc.Drops)
    (mask : q.mask = s.queue.mask) (capacity : q.capacity = s.queue.capacity)
    (policy : q.dropPolicy = s.queue.dropPolicy)
    (enqueuePos : q.enqueuePos.toNat = log.claimed.length)
    (dequeuePos : q.dequeuePos.toNat = log.taken.length)
    (accepted : ∀ call, (call, true) ∈ returns.enqueue → Accepted log call)
    (delivered : ∀ call data, (call, data, true) ∈ returns.dequeue → Delivered log call data) :
    Inv e ⟨q, update s.pc t pc, log, returns⟩ where
  shape := inv.shape.congr mask capacity (ring.slots.size.trans inv.shape.size.symm)
  policy := by simpa only [policy] using inv.policy
  enqueuePos := enqueuePos
  dequeuePos := dequeuePos
  ring := by
    rw [stakes_update]
    exact ring
  noDrops := by
    intro u
    by_cases mine : u = t
    · subst mine
      simpa using noDrop
    · simpa [update_of_ne mine] using inv.noDrops u
  accepted := accepted
  delivered := delivered

/-- A step of the caller `t` that changes only what it knows. -/
theorem Inv.goto (inv : Inv e s) (place : s.pc t = here) (own : pc.stake.Ok e s.queue.buffer s.log)
    (noDrop : ¬ pc.Drops)
    (enqueueKeeps : ∀ call, pc.stake.enqueueCall = some call → here.stake.enqueueCall = some call)
    (dequeueKeeps : ∀ call, pc.stake.dequeueCall = some call → here.stake.dequeueCall = some call)
    (producing : here.stake.producing = none) (consuming : here.stake.consuming = none) :
    Inv e (s.goto t pc) := by
  subst place
  exact inv.update (inv.ring.move own enqueueKeeps dequeueKeeps producing consuming) noDrop rfl rfl
    rfl inv.enqueuePos inv.dequeuePos inv.accepted inv.delivered

theorem enqueueLoop_stake (call : Nat) (item : Option M) (retryCount : Nat) :
    (enqueueLoop call item retryCount).stake = .seeking call item ∨
      (enqueueLoop call item retryCount).stake = .none := by
  rw [enqueueLoop]
  split
  · exact .inl rfl
  · exact .inr rfl

theorem enqueueLoop_not_drops (call : Nat) (item : Option M) (retryCount : Nat) :
    ¬ (enqueueLoop call item retryCount).Drops := by
  rw [enqueueLoop]
  split <;> exact id

theorem Inv.enqueueLoop (inv : Inv e s) (place : s.pc t = here) (waiting : Waiting s.log call item)
    (mine : here.stake.enqueueCall = some call) (producing : here.stake.producing = none)
    (consuming : here.stake.consuming = none) (retryCount : Nat) :
    Inv e (s.goto t (LockFreeThreads.enqueueLoop call item retryCount)) := by
  have noDrop := enqueueLoop_not_drops call item retryCount
  rcases enqueueLoop_stake call item retryCount with again | gone
  · apply inv.goto place (by rw [again]; exact waiting) noDrop _ _ producing consuming
    · intro c found
      rw [again] at found
      rw [mine]
      exact found
    · simp [again, Stake.dequeueCall]
  · apply inv.goto place (by rw [gone]; trivial) noDrop _ _ producing consuming
    · simp [gone, Stake.enqueueCall]
    · simp [gone, Stake.dequeueCall]

theorem Inv.dequeueFails (inv : Inv e s) (place : s.pc t = here)
    (producing : here.stake.producing = none) (consuming : here.stake.consuming = none)
    (call : Nat) : Inv e (s.dequeueFails t call) := by
  subst place
  refine inv.update ?_ id rfl rfl rfl inv.enqueuePos inv.dequeuePos inv.accepted ?_
  · exact inv.ring.leave producing consuming
  · intro other data member
    rcases List.mem_append.mp member with old | new
    · exact inv.delivered other data old
    · simp at new

theorem Inv.dequeueRetry (inv : Inv e s) (place : s.pc t = here) (waiting : call ∉ s.log.taken)
    (mine : here.stake.dequeueCall = some call) (producing : here.stake.producing = none)
    (consuming : here.stake.consuming = none) (retryCount : Nat) :
    Inv e (s.dequeueRetry t call retryCount) := by
  rw [System.dequeueRetry]
  split
  · refine inv.goto place waiting id ?_ ?_ producing consuming
    · simp [Pc.stake, Stake.enqueueCall]
    · intro c found
      rw [mine]
      exact found
  · exact inv.dequeueFails place producing consuming call

theorem Inv.advance (inv : Inv e s) (calls : s.log.enqueues.length < 2 ^ 63) (here : s.pc t = pc) :
    Inv e (s.advance t pc) := by
  have small : s.log.claimed.length < 2 ^ 63 := Nat.lt_of_le_of_lt inv.ring.slots.claimed_le calls
  have ordered := inv.ring.slots.ordered
  have stake : s.stakes t = pc.stake := congrArg Pc.stake here
  have ok := inv.ring.ok t
  rw [stake] at ok
  cases pc with
  | idle => exact inv
  | enqueueLoad call item retryCount =>
    exact inv.goto here ⟨ok, inv.enqueuePos.le⟩ id (fun _ => id) (fun _ => id) rfl rfl
  | enqueueSequence call item retryCount pos =>
    obtain ⟨waiting, bound⟩ := ok
    simp only [System.advance]
    split
    · rename_i ready
      refine inv.goto here ⟨waiting, bound, fun _ => ?_⟩ id (fun _ => id) (fun _ => id) rfl rfl
      exact inv.turn_of_sequence ((dif_eq_zero_iff _ _).mp ready)
    · split
      · split
        · exact inv.goto here trivial id (by simp [Pc.stake, Stake.enqueueCall]) (fun _ => id) rfl rfl
        · rename_i oldest
          exact absurd oldest inv.policy
        · exact inv.enqueueLoop here waiting rfl rfl rfl _
      · exact inv.enqueueLoop here waiting rfl rfl rfl _
  | enqueueCas call item retryCount pos =>
    obtain ⟨waiting, bound, ready⟩ := ok
    simp only [System.advance]
    split
    · rename_i won
      have position : pos.toNat = s.log.claimed.length := by rw [← won, inv.enqueuePos]
      have turn := ready position
      rw [position] at turn
      have grows := Log.Grows.claim s.log call item
      refine inv.update ?_ id rfl rfl rfl ?_ inv.dequeuePos ?_ ?_
      · simp only [Pc.stake, position]
        exact inv.ring.claim (by rw [stake]; rfl) waiting turn (by rw [stake]; rfl) (by rw [stake]; rfl)
      · rw [toNat_succ (by omega), position]
        simp [Log.claim]
      · exact fun other returned => (inv.accepted other returned).mono grows
      · exact fun other data returned => (inv.delivered other data returned).mono grows
    · exact inv.enqueueLoop here waiting rfl rfl rfl _
  | enqueueDrop call =>
    refine inv.update ?_ id rfl rfl rfl inv.enqueuePos inv.dequeuePos ?_ inv.delivered
    · exact inv.ring.leave (by rw [stake]; rfl) (by rw [stake]; rfl)
    · intro other member
      rcases List.mem_append.mp member with old | new
      · exact inv.accepted other old
      · simp at new
  | dropLoad | dropCas =>
    have noDrop := inv.noDrops t
    rw [here] at noDrop
    exact absurd trivial noDrop
  | enqueueData call item pos =>
    have grows := Log.Grows.write s.log pos.toNat
    refine inv.update ?_ id rfl rfl rfl inv.enqueuePos inv.dequeuePos
      (fun other returned => (inv.accepted other returned).mono grows) ?_
    · simp only [storeData, inv.shape.index_word pos]
      exact inv.ring.write stake
    · exact fun other data returned => (inv.delivered other data returned).mono grows
  | enqueuePublish call item pos =>
    have inside := lt_of_claimed ok.1.claimed
    refine inv.update ?_ id rfl rfl rfl inv.enqueuePos inv.dequeuePos inv.accepted inv.delivered
    simp only [storeSequence, inv.shape.index_word pos]
    exact inv.ring.publish stake (toNat_succ (by omega))
  | enqueueCount call =>
    refine inv.update ?_ id rfl rfl rfl inv.enqueuePos inv.dequeuePos ?_ inv.delivered
    · exact inv.ring.leave (by rw [stake]; rfl) (by rw [stake]; rfl)
    · intro other member
      rcases List.mem_append.mp member with old | new
      · exact inv.accepted other old
      · obtain ⟨rfl, -⟩ := Prod.mk.inj (List.mem_singleton.mp new)
        exact ok
  | dequeueLoad call retryCount =>
    exact inv.goto here ⟨ok, inv.dequeuePos.le⟩ id (fun _ => id) (fun _ => id) rfl rfl
  | dequeueSequence call retryCount pos =>
    obtain ⟨waiting, bound⟩ := ok
    simp only [System.advance]
    split
    · rename_i ready
      refine inv.goto here ⟨waiting, bound, fun _ => ?_⟩ id (fun _ => id) (fun _ => id) rfl rfl
      rw [inv.turn_of_sequence ((dif_eq_zero_iff _ _).mp ready), toNat_succ (by omega)]
    · split
      · exact inv.dequeueFails here rfl rfl call
      · exact inv.dequeueRetry here waiting rfl rfl rfl _
  | dequeueCas call retryCount pos =>
    obtain ⟨waiting, bound, ready⟩ := ok
    simp only [System.advance]
    split
    · rename_i won
      have position : pos.toNat = s.log.taken.length := by rw [← won, inv.dequeuePos]
      have turn := ready position
      rw [position] at turn
      have grows := Log.Grows.take s.log call
      refine inv.update ?_ id rfl rfl rfl inv.enqueuePos ?_ inv.accepted ?_
      · simp only [Pc.stake, position]
        exact inv.ring.take (by rw [stake]; rfl) waiting turn (by rw [stake]; rfl) (by rw [stake]; rfl)
      · rw [toNat_succ (by omega), position]
        simp [Log.take]
      · exact fun other data returned => (inv.delivered other data returned).mono grows
    · exact inv.dequeueRetry here waiting rfl rfl rfl _
  | dequeueData call pos =>
    refine inv.update ?_ id rfl rfl rfl inv.enqueuePos inv.dequeuePos inv.accepted inv.delivered
    simp only [Pc.stake, data, inv.shape.index_word pos]
    exact inv.ring.load stake
  | dequeueClear call pos data =>
    refine inv.update ?_ id rfl rfl rfl inv.enqueuePos inv.dequeuePos inv.accepted inv.delivered
    simp only [storeData, inv.shape.index_word pos]
    exact inv.ring.clear stake
  | dequeueRelease call pos data =>
    have inside := lt_of_taken ok.1.taken
    refine inv.update ?_ id rfl rfl rfl inv.enqueuePos inv.dequeuePos inv.accepted inv.delivered
    simp only [storeSequence, inv.shape.index_word pos]
    exact inv.ring.release stake (toNat_add_mask inv.shape.fits inv.shape.mask (by omega))
  | dequeueCount call data =>
    refine inv.update ?_ id rfl rfl rfl inv.enqueuePos inv.dequeuePos inv.accepted ?_
    · exact inv.ring.leave (by rw [stake]; rfl) (by rw [stake]; rfl)
    · intro other x member
      rcases List.mem_append.mp member with old | new
      · exact inv.delivered other x old
      · obtain ⟨rfl, same⟩ := Prod.mk.inj (List.mem_singleton.mp new)
        obtain ⟨rfl, -⟩ := Prod.mk.inj same
        exact ok

theorem advance_enqueues (s : System T M) (t : T) (pc : Pc M) :
    (s.advance t pc).log.enqueues = s.log.enqueues := by
  cases pc <;> simp only [System.advance, System.dequeueRetry, System.dequeueFails, System.goto]
  all_goals (repeat' split) <;> rfl

/-- The number of enqueues never falls, so a bound on it afterwards held before. -/
theorem Inv.next (inv : s.log.enqueues.length < 2 ^ 63 → Inv e s)
    (stepped : machine.next s label = some after) (calls : after.log.enqueues.length < 2 ^ 63) :
    Inv e after := by
  cases label with
  | enqueue t item =>
    simp only [machine] at stepped
    split at stepped
    · rename_i here
      cases stepped
      have inv := inv (by simp [System.goto] at calls; omega)
      refine inv.update ?_ (enqueueLoop_not_drops _ _ _) rfl rfl rfl inv.enqueuePos inv.dequeuePos
        inv.accepted inv.delivered
      exact inv.ring.startEnqueue (congrArg Pc.stake here) item
    · cases stepped
  | dequeue t =>
    simp only [machine] at stepped
    split at stepped
    · rename_i here
      cases stepped
      have inv := inv calls
      refine inv.update ?_ ?_ rfl rfl rfl inv.enqueuePos inv.dequeuePos inv.accepted inv.delivered
      · exact inv.ring.startDequeue (congrArg Pc.stake here)
      · exact id
    · cases stepped
  | step t =>
    simp only [machine] at stepped
    split at stepped
    · cases stepped
    · cases stepped
      rw [advance_enqueues] at calls
      exact (inv calls).advance calls rfl

theorem inv_run (inv : Inv e s) (ran : machine.run s labels = some after)
    (calls : after.log.enqueues.length < 2 ^ 63) : Inv e after :=
  machine.run_invariant (P := fun s => s.log.enqueues.length < 2 ^ 63 → Inv e s)
    (fun _ _ _ keeps stepped => Inv.next keeps stepped) (fun _ => inv) ran calls

/-- The call `taker` of `Dequeue` returned the item of the call `producer` of
    `Enqueue`: both won the same position. -/
def Returned (s : System T M) (producer taker : Nat) : Prop :=
  ∃ (k : Nat) (item : Option M), s.log.claimed[k]? = some (producer, item) ∧
    s.log.taken[k]? = some taker ∧
    (taker, item, true) ∈ s.returns.dequeue

structure Safe (s : System T M) : Prop where
  /-- An accepted message has won a position and is stored there. -/
  accepted : ∀ call, (call, true) ∈ s.returns.enqueue → Accepted s.log call
  /-- A message is returned by at most one `Dequeue`. -/
  once : ∀ producer a b, Returned s producer a → Returned s producer b → a = b
  /-- The same for the pointer itself, if it was enqueued by one call only. -/
  onceItem : ∀ item a b,
    (∀ c d : Nat, s.log.enqueues[c]? = some item → s.log.enqueues[d]? = some item → c = d) →
    (a, item, true) ∈ s.returns.dequeue → (b, item, true) ∈ s.returns.dequeue → a = b
  /-- A returned message is that of a call of `Enqueue`. -/
  genuine : ∀ taker item, (taker, item, true) ∈ s.returns.dequeue →
    ∃ producer : Nat, s.log.enqueues[producer]? = some item ∧ Returned s producer taker
  /-- The `k`-th position won by a `Dequeue` is the `k`-th won by an `Enqueue`. -/
  fifo : s.log.taken.length ≤ s.log.claimed.length ∧
    ∀ (k : Nat) taker item, s.log.taken[k]? = some taker → (taker, item, true) ∈ s.returns.dequeue →
      ∃ producer, s.log.claimed[k]? = some (producer, item)
  /-- A stored message stays in its slot until a `Dequeue` has loaded it. -/
  kept : ∀ (k : Nat) producer item, s.log.claimed[k]? = some (producer, item) → k ∈ s.log.written →
    k ∉ s.log.loaded → s.queue.data (UInt64.ofNat k) = item
  ordered : s.queue.dequeuePos.toNat ≤ s.queue.enqueuePos.toNat
  bounded : (s.queue.enqueuePos.toNat : Int) ≤ s.queue.dequeuePos.toNat + s.queue.capacity.toInt

omit [DecidableEq T] in
theorem Inv.safe (inv : Inv e s) : Safe s := by
  have slots := inv.ring.slots
  have once : ∀ producer a b, Returned s producer a → Returned s producer b → a = b := by
    rintro producer a b ⟨j, x, claimedA, takenA, -⟩ ⟨k, y, claimedB, takenB, -⟩
    obtain rfl := slots.index_of_claimed claimedA claimedB
    exact Option.some.inj (takenA.symm.trans takenB)
  have genuine : ∀ taker item, (taker, item, true) ∈ s.returns.dequeue →
      ∃ producer : Nat, s.log.enqueues[producer]? = some item ∧ Returned s producer taker := by
    intro taker item returned
    obtain ⟨k, producer, taken, claimed⟩ := inv.delivered taker item returned
    exact ⟨producer, slots.called producer item (List.mem_of_getElem? claimed),
      k, item, claimed, taken, returned⟩
  refine ⟨inv.accepted, once, ?_, genuine, ⟨slots.ordered, ?_⟩, ?_, ?_, ?_⟩
  · intro item a b distinct returnedA returnedB
    obtain ⟨c, calledC, givesA⟩ := genuine a item returnedA
    obtain ⟨d, calledD, givesB⟩ := genuine b item returnedB
    obtain rfl := distinct c d calledC calledD
    exact once c a b givesA givesB
  · intro k taker item taken returned
    obtain ⟨j, producer, taken', claimed⟩ := inv.delivered taker item returned
    exact ⟨producer, slots.index_of_taken taken' taken ▸ claimed⟩
  · intro k producer item claimed written unread
    have live := (slots.live k written unread).item
    rw [claimed] at live
    rw [data, inv.shape.index k]
    exact (Option.some.inj live).symm
  · rw [inv.enqueuePos, inv.dequeuePos]
    exact slots.ordered
  · rw [inv.enqueuePos, inv.dequeuePos, inv.shape.capacity]
    exact_mod_cast slots.bounded

/-- Any number of callers, in any interleaving of fewer than `2 ^ 63` enqueues, use
    the queue safely when its policy is not `DropOldest`. -/
theorem lockFreeQueue_safe {name : String} {capacity : Int64} {dropPolicy : DropPolicy}
    {q : LockFreeQueue M} (made : newLockFreeQueue name capacity dropPolicy = some q)
    (two : 2 ≤ q.capacity) (policy : dropPolicy ≠ .dropOldest) {labels : List (Label T M)}
    {s : System T M} (ran : machine.run (initial q) labels = some s)
    (calls : s.log.enqueues.length < 2 ^ 63) : Safe s := by
  obtain ⟨e, -, shape, buffer, enqueuePos, dequeuePos, samePolicy⟩ := newLockFreeQueue_eq made two
  have start : Inv e (initial q : System T M) :=
    inv_initial shape buffer enqueuePos dequeuePos (by rw [samePolicy]; exact policy)
  exact (inv_run start ran calls).safe

/-- A queue of two slots that drops the newest message. -/
def twoSlots : LockFreeQueue Nat where
  mask := 1
  buffer := [⟨0, none⟩, ⟨1, none⟩]
  enqueuePos := 0
  dequeuePos := 0
  enqueueCount := 0
  dequeueCount := 0
  dropCount := 0
  name := "normal-priority"
  capacity := 2
  dropPolicy := .dropNewest

/-- Two producers race for the first position while a consumer waits for it. -/
def race : List (Label (Fin 4) Nat) :=
  [.enqueue 0 (some 7), .enqueue 1 (some 8), .step 0, .step 1, .step 0, .step 1, .step 1, .step 0,
    .step 0, .step 0, .step 0, .step 1, .step 1, .dequeue 2, .step 2, .step 2, .step 2, .step 2]

theorem lockFreeQueue_safe_race :
    ∃ s, newLockFreeQueue "normal-priority" 2 .dropNewest = some twoSlots ∧
      machine.run (initial twoSlots) race = some s ∧ s.log.enqueues.length = 2 ∧ Safe s := by
  have made : newLockFreeQueue "normal-priority" 2 .dropNewest = some twoSlots := by decide
  have ends : (machine.run (initial twoSlots) race).map (·.log.enqueues.length) = some 2 := by
    decide +kernel
  obtain ⟨s, ran, count⟩ := Option.map_eq_some_iff.mp ends
  exact ⟨s, made, ran, count, lockFreeQueue_safe made (by decide) (by decide) ran (by omega)⟩

/-! ## Progress

A compare-and-swap that fails uses up no retry. But it fails only if another caller has moved the
position, so a caller that is not overtaken comes to the end of its call.
-/

/-- The steps for which the retries from here on are good. -/
def budget (retryCount : Nat) : Nat := 5 * (maxRetries - retryCount) + 2

/-- At most as many steps are left of the call, unless a position moves: a position that was read
    and is still the current one will be won. -/
def Pc.left (q : LockFreeQueue M) : Pc M → Nat
  | .idle => 0
  | .enqueueLoad _ _ retryCount | .dequeueLoad _ retryCount => budget (retryCount + 1) + 5
  | .enqueueSequence _ _ retryCount pos =>
    if q.enqueuePos = pos then budget (retryCount + 1) + 4 else budget retryCount + 3
  | .dequeueSequence _ retryCount pos =>
    if q.dequeuePos = pos then budget (retryCount + 1) + 4 else budget retryCount + 3
  | .enqueueCas _ _ retryCount pos => if q.enqueuePos = pos then 5 else budget retryCount + 1
  | .dequeueCas _ retryCount pos => if q.dequeuePos = pos then 5 else budget retryCount + 1
  | .dropLoad _ _ retryCount _ => budget (retryCount + 1) + 2
  | .dropCas _ _ retryCount _ _ => budget (retryCount + 1) + 1
  | .dequeueData .. => 4
  | .enqueueData .. | .dequeueClear .. => 3
  | .enqueuePublish .. | .dequeueRelease .. => 2
  | .enqueueDrop _ | .enqueueCount _ | .dequeueCount .. => 1

theorem left_le (q : LockFreeQueue M) (pc : Pc M) : pc.left q ≤ 5 * maxRetries + 7 := by
  cases pc <;> simp only [Pc.left, budget, maxRetries] <;> (try split) <;> omega

theorem budget_lt (current : Prop) [Decidable current] (retryCount : Nat) :
    budget (retryCount + 1) + 2 < if current then budget (retryCount + 1) + 4
      else budget retryCount + 3 := by
  simp only [budget]
  split <;> omega

theorem left_enqueueLoop (q : LockFreeQueue M) (call : Nat) (item : Option M) (retryCount : Nat) :
    (enqueueLoop call item retryCount).left q ≤ budget retryCount := by
  rw [enqueueLoop]
  split <;> simp only [Pc.left, budget] <;> omega

def System.left (s : System T M) (t : T) : Nat := (s.pc t).left s.queue

@[simp] theorem left_goto (pc : Pc M) : (s.goto t pc).left t = pc.left s.queue := by
  simp [System.left, System.goto]

theorem left_dequeueRetry (call retryCount : Nat) :
    (s.dequeueRetry t call retryCount).left t ≤ budget retryCount := by
  rw [System.dequeueRetry]
  split
  · simp only [left_goto, Pc.left, budget]
    omega
  · simp [System.dequeueFails, Pc.left]

/-- A caller's own step brings it nearer to the end of its call. -/
theorem left_advance {pc : Pc M} (busy : pc ≠ .idle) :
    (s.advance t pc).left t < pc.left s.queue := by
  cases pc with
  | idle => exact absurd rfl busy
  | enqueueSequence call item retryCount pos =>
    simp only [System.advance]
    split
    · simp only [left_goto, Pc.left, budget]
      split <;> omega
    · refine Nat.lt_of_le_of_lt ?_ (budget_lt _ retryCount)
      repeat' split
      all_goals rw [left_goto]
      · simp [Pc.left]
      · exact Nat.le_refl _
      all_goals exact Nat.le_add_right_of_le (left_enqueueLoop ..)
  | enqueueCas call item retryCount pos =>
    simp only [System.advance]
    split
    · next won => simp [Pc.left, won]
    · next lost =>
        rw [left_goto, Pc.left, if_neg lost]
        exact Nat.lt_succ_of_le (left_enqueueLoop s.queue call item retryCount)
  | dropCas call item retryCount pos old =>
    rw [System.advance, left_goto]
    exact Nat.lt_succ_of_le (left_enqueueLoop _ call item (retryCount + 1))
  | dequeueSequence call retryCount pos =>
    simp only [System.advance]
    split
    · simp only [left_goto, Pc.left, budget]
      split <;> omega
    · refine Nat.lt_of_le_of_lt ?_ (budget_lt _ retryCount)
      split
      · simp [System.dequeueFails, Pc.left]
      · exact Nat.le_add_right_of_le (left_dequeueRetry call (retryCount + 1))
  | dequeueCas call retryCount pos =>
    simp only [System.advance]
    split
    · next won => simp [Pc.left, won]
    · next lost =>
        rw [Pc.left, if_neg lost]
        exact Nat.lt_succ_of_le (left_dequeueRetry call retryCount)
  | _ => simp [System.advance, Pc.left]

def Label.caller : Label T M → T
  | .enqueue t _ | .dequeue t | .step t => t

def System.SamePositions (s later : System T M) : Prop :=
  later.queue.enqueuePos = s.queue.enqueuePos ∧ later.queue.dequeuePos = s.queue.dequeuePos

theorem advance_pc (other : t ≠ u) (pc : Pc M) : (s.advance u pc).pc t = s.pc t := by
  cases pc <;> simp only [System.advance, System.dequeueRetry, System.dequeueFails, System.goto]
  all_goals (repeat' split) <;> first | rfl | exact update_of_ne other ..

/-- A step of another caller that moves no position changes nothing. -/
theorem left_other (stepped : machine.next s label = some mid) (other : label.caller ≠ t)
    (still : s.SamePositions mid) : mid.left t = s.left t := by
  have pc : mid.pc t = s.pc t := by
    cases label <;> simp only [machine] at stepped <;> split at stepped <;> cases stepped
    · exact update_of_ne other.symm ..
    · simp only [System.dequeueRetry, System.dequeueFails, System.goto]
      split <;> exact update_of_ne other.symm ..
    · exact advance_pc other.symm _
  rw [System.left, System.left, pc]
  cases s.pc t <;> simp only [Pc.left, still.1, still.2]

/-- In one of the steps another caller moves a position. -/
def Overtaken (t : T) (s : System T M) (labels : List (Label T M)) : Prop :=
  ∃ before label mid later, before ++ [label] <+: labels ∧ machine.run s before = some mid ∧
    machine.next mid label = some later ∧ label.caller ≠ t ∧ ¬ mid.SamePositions later

variable {labels : List (Label T M)}

theorem steps_le_left (ran : machine.run s labels = some after)
    (same : ∀ label ∈ labels, label.caller = t → label = .step t) :
    labels.countP (·.caller = t) ≤ s.left t ∨ Overtaken t s labels := by
  induction labels generalizing s with
  | nil => exact .inl (Nat.zero_le _)
  | cons label rest ih =>
    obtain ⟨mid, first, later⟩ := machine.run_cons.mp ran
    rcases ih later fun label inside => same label (List.mem_cons_of_mem _ inside) with
      few | ⟨before, next, found, moved, front, reached, overtakes⟩
    · by_cases mine : label.caller = t
      · obtain rfl := same label List.mem_cons_self mine
        have nearer : mid.left t < s.left t := by
          simp only [machine] at first
          split at first
          · cases first
          · next pc busy =>
              cases first
              exact left_advance busy
        refine .inl ?_
        rw [List.countP_cons_of_pos (by simpa using mine)]
        omega
      · by_cases still : s.SamePositions mid
        · rw [List.countP_cons_of_neg (by simpa using mine), ← left_other first mine still]
          exact .inl few
        · exact .inr ⟨[], label, s, mid, by simp, rfl, first, mine, still⟩
    · exact .inr ⟨label :: before, next, found, moved, by simpa using front,
        machine.run_cons.mpr ⟨mid, first, reached⟩, overtakes⟩

/-- Whatever state the queue is in and whatever its policy, and in every interleaving: a caller that
    takes more steps in one call has been overtaken. -/
theorem call_ends_unless_overtaken (ran : machine.run s labels = some after)
    (same : ∀ label ∈ labels, label.caller = t → label = .step t) :
    labels.countP (·.caller = t) ≤ 5 * maxRetries + 7 ∨ Overtaken t s labels :=
  (steps_le_left ran same).imp_left fun few => Nat.le_trans few (left_le s.queue (s.pc t))

/-- The producer that loses the race, from the call on. -/
theorem racing_call_ends :
    ∃ s after, machine.run (initial twoSlots) (race.take 2) = some s ∧
      machine.run s (race.drop 2) = some after ∧
      ((race.drop 2).countP (·.caller = 0) ≤ 5 * maxRetries + 7 ∨ Overtaken 0 s (race.drop 2)) := by
  have ends : ((machine.run (initial twoSlots) (race.take 2)).bind (machine.run · (race.drop 2))).isSome = true := by
    decide +kernel
  obtain ⟨after, ran⟩ := Option.isSome_iff_exists.mp ends
  obtain ⟨s, begun, ran⟩ := Option.bind_eq_some_iff.mp ran
  exact ⟨s, after, begun, ran, call_ends_unless_overtaken ran (by simp [race, Label.caller])⟩

end Portask.Queue.LockFreeThreads
