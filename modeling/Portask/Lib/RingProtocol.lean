import Mathlib.Logic.Function.Basic
import Portask.Lib.RingSlots

/-! # Stakes in a ring

What a caller of a ring knows and owns is its stake: the call it is in, the position it
looks at, the slot it has won. A program that uses a ring maps its program counters to
stakes; each of its atomic operations is then one of the rules below, whatever order the
program performs them in. `Protocol` is kept by all rules, for any set of callers.

A producer that has found the slot of `pos` ready relies on that only as long as `pos` is
still the next position to be claimed, and a consumer likewise.
-/

namespace Portask.Lib.Ring

variable {T M : Type}

inductive Stake (M : Type) where
  | none
  /-- A producer without a position. -/
  | seeking (call : Nat) (item : Option M)
  /-- It has seen that positions have come as far as `pos`. -/
  | reached (call : Nat) (item : Option M) (pos : Nat)
  /-- It has seen the slot of `pos` ready. -/
  | ready (call : Nat) (item : Option M) (pos : Nat)
  /-- It has won the position `pos`, and has yet to write its slot. -/
  | claimed (call : Nat) (item : Option M) (pos : Nat)
  /-- It has yet to publish the slot. -/
  | written (call : Nat) (item : Option M) (pos : Nat)
  | published (call : Nat)
  /-- A consumer without a position. -/
  | looking (call : Nat)
  | approached (call : Nat) (pos : Nat)
  | sighted (call : Nat) (pos : Nat)
  /-- It has won the position `pos`, and has yet to read its slot. -/
  | taken (call : Nat) (pos : Nat)
  /-- It has yet to release the slot. -/
  | read (call : Nat) (pos : Nat) (data : Option M)
  | released (call : Nat) (data : Option M)

namespace Stake

/-- The call of a producer. -/
def enqueueCall : Stake M → Option Nat
  | .seeking call _ | .reached call _ _ | .ready call _ _ | .claimed call _ _ | .written call _ _
  | .published call => some call
  | _ => Option.none

def dequeueCall : Stake M → Option Nat
  | .looking call | .approached call _ | .sighted call _ | .taken call _ | .read call _ _
  | .released call _ => some call
  | _ => Option.none

/-- The position whose slot its producer has not published. -/
def producing : Stake M → Option Nat
  | .claimed _ _ pos | .written _ _ pos => some pos
  | _ => Option.none

/-- The position whose slot its consumer has not released. -/
def consuming : Stake M → Option Nat
  | .taken _ pos | .read _ pos _ => some pos
  | _ => Option.none

def Ok (e : Nat) (buffer : List (Node M)) (log : Log M) : Stake M → Prop
  | .none => True
  | .seeking call item => Waiting log call item
  | .reached call item pos => Waiting log call item ∧ pos ≤ log.claimed.length
  | .ready call item pos =>
    Waiting log call item ∧ pos ≤ log.claimed.length ∧
      (pos = log.claimed.length → turnAt e buffer pos = pos)
  | .claimed call item pos => Produces e buffer log call item pos ∧ pos ∉ log.written
  | .written call item pos => Produces e buffer log call item pos ∧ pos ∈ log.written
  | .published call => Accepted log call
  | .looking call => call ∉ log.taken
  | .approached call pos => call ∉ log.taken ∧ pos ≤ log.taken.length
  | .sighted call pos =>
    call ∉ log.taken ∧ pos ≤ log.taken.length ∧
      (pos = log.taken.length → turnAt e buffer pos = pos + 1)
  | .taken call pos => Consumes e buffer log call pos ∧ pos ∈ log.written ∧ pos ∉ log.loaded
  | .read call pos data =>
    Consumes e buffer log call pos ∧ pos ∈ log.loaded ∧ Delivered log call data
  | .released call data => Delivered log call data

variable {e : Nat} {buffer : List (Node M)} {log : Log M} {stake : Stake M} {call k : Nat}

theorem Ok.claim (ok : stake.Ok e buffer log) (item : Option M)
    (other : stake.enqueueCall ≠ some call) : stake.Ok e buffer (log.claim call item) := by
  have waiting : ∀ {c x}, Waiting log c x → c ≠ call → Waiting (log.claim call item) c x := by
    intro c x ⟨called, fresh⟩ different
    refine ⟨called, ?_⟩
    simp only [Log.claim, List.map_append, List.map_cons, List.map_nil, List.mem_append,
      List.mem_singleton, not_or]
    exact ⟨fresh, different⟩
  have grows := Log.Grows.claim log call item
  have produces : ∀ {c x k}, Produces e buffer log c x k →
      Produces e buffer (log.claim call item) c x k :=
    fun p => ⟨grows.claimed _ _ p.claimed, p.ahead, p.turn⟩
  have grown : (log.claim call item).claimed.length = log.claimed.length + 1 := by simp [Log.claim]
  cases stake with
  | none => trivial
  | seeking c x => exact waiting ok (by simpa [enqueueCall] using other)
  | reached c x pos =>
    exact ⟨waiting ok.1 (by simpa [enqueueCall] using other), by have := ok.2; omega⟩
  | ready c x pos =>
    obtain ⟨wait, bound, -⟩ := ok
    exact ⟨waiting wait (by simpa [enqueueCall] using other), by omega, by omega⟩
  | claimed c x pos | written c x pos => exact ⟨produces ok.1, ok.2⟩
  | published c => exact Accepted.mono ok grows
  | looking | approached | sighted => exact ok
  | taken c pos => exact ⟨⟨ok.1.taken, ok.1.turn⟩, ok.2⟩
  | read c pos data => exact ⟨⟨ok.1.taken, ok.1.turn⟩, ok.2.1, ok.2.2.mono grows⟩
  | released c data => exact Delivered.mono ok grows

theorem Ok.write (ok : stake.Ok e buffer log) (owner : Produces e buffer log call item k)
    (other : stake.enqueueCall ≠ some call) :
    stake.Ok e (setData buffer i item) { log with written := log.written ++ [k] } := by
  have produces : ∀ {c x j}, Produces e buffer log c x j →
      Produces e (setData buffer i item) { log with written := log.written ++ [k] } c x j :=
    fun p => ⟨p.claimed, p.ahead, by simpa using p.turn⟩
  have consumes : ∀ {c j}, Consumes e buffer log c j →
      Consumes e (setData buffer i item) { log with written := log.written ++ [k] } c j :=
    fun p => ⟨p.taken, by simpa using p.turn⟩
  cases stake with
  | none => trivial
  | seeking | reached | looking | approached => exact ok
  | ready | sighted => exact ⟨ok.1, ok.2.1, by simpa using ok.2.2⟩
  | claimed c x pos =>
    refine ⟨produces ok.1, ?_⟩
    simp only [List.mem_append, List.mem_singleton, not_or]
    refine ⟨ok.2, ?_⟩
    intro same
    rw [← same] at owner
    exact other (congrArg some (call_of_claimed ok.1.claimed owner.claimed))
  | written c x pos => exact ⟨produces ok.1, List.mem_append_left _ ok.2⟩
  | published c => exact Accepted.mono ok (Log.Grows.write log k)
  | taken c pos => exact ⟨consumes ok.1, List.mem_append_left _ ok.2.1, ok.2.2⟩
  | read c pos data => exact ⟨consumes ok.1, ok.2⟩
  | released => exact ok

/-- The slot of another position that is claimed or published keeps its turn. -/
theorem turnAt_kept (slots : Slots e buffer log)
    (turn : turnAt e buffer k = k ∨ turnAt e buffer k = k + 1)
    (kept : turnAt e buffer j = j ∨ turnAt e buffer j = j + 1) (different : j ≠ k) :
    turnAt e (setSequence buffer (slot e k) value) j = turnAt e buffer j := by
  refine turnAt_setSequence_ne slots.size _ fun same => ?_
  have shown : turnAt e buffer k = turnAt e buffer j := turnAt_congr same
  have after : k ≠ j + 1 := fun next => turn_clash slots.two same next
  have before : j ≠ k + 1 := fun next => turn_clash slots.two same.symm next
  omega

/-- A stake relies on the turns of the slot it owns and of the one it waits for, and on no other. -/
theorem Ok.store (ok : stake.Ok e buffer log)
    (produced : ∀ {j}, stake.producing = some j ∨ j = log.claimed.length → turnAt e buffer j = j →
      turnAt e after j = j)
    (consumed : ∀ {j}, stake.consuming = some j ∨ j = log.taken.length → turnAt e buffer j = j + 1 →
      turnAt e after j = j + 1) : stake.Ok e after log := by
  cases stake with
  | none => trivial
  | seeking | reached | published | looking | approached | released => exact ok
  | ready => exact ⟨ok.1, ok.2.1, fun current => produced (.inr current) (ok.2.2 current)⟩
  | claimed | written => exact ⟨⟨ok.1.claimed, ok.1.ahead, produced (.inl rfl) ok.1.turn⟩, ok.2⟩
  | sighted => exact ⟨ok.1, ok.2.1, fun current => consumed (.inr current) (ok.2.2 current)⟩
  | taken | read => exact ⟨⟨ok.1.taken, consumed (.inl rfl) ok.1.turn⟩, ok.2⟩

/-- No caller but the producer of position `k` relies on the slot of `k`. -/
theorem Ok.publish (slots : Slots e buffer log) (ok : stake.Ok e buffer log)
    (owner : Produces e buffer log call item k) (other : stake.enqueueCall ≠ some call) :
    stake.Ok e (setSequence buffer (slot e k) value) log := by
  have inside := lt_of_claimed owner.claimed
  have elsewhere : stake.producing ≠ some k := by
    intro mine
    cases stake <;> simp only [producing, Option.some.injEq, reduceCtorEq] at mine
    all_goals exact other (congrArg some (call_of_claimed (mine ▸ ok.1.claimed) owner.claimed))
  refine ok.store (fun {j} mine turn =>
    (turnAt_kept slots (.inl owner.turn) (.inl turn) ?_).trans turn)
    (fun {j} _ turn => (turnAt_kept slots (.inl owner.turn) (.inr turn) ?_).trans turn)
  · rintro rfl
    exact mine.elim elsewhere (by omega)
  · rintro rfl
    exact absurd (owner.turn.symm.trans turn) (by omega)

theorem Ok.take (ok : stake.Ok e buffer log) (other : stake.dequeueCall ≠ some call)
    (ready : turnAt e buffer log.taken.length = log.taken.length + 1) :
    stake.Ok e buffer (log.take call) := by
  have grown : (log.take call).taken.length = log.taken.length + 1 := by simp [Log.take]
  have grows := Log.Grows.take log call
  have waiting : ∀ {c}, c ∉ log.taken → c ≠ call → c ∉ (log.take call).taken := by
    intro c fresh different
    simp only [Log.take, List.mem_append, List.mem_singleton, not_or]
    exact ⟨fresh, different⟩
  have produces : ∀ {c x k}, Produces e buffer log c x k →
      Produces e buffer (log.take call) c x k := by
    intro c x k p
    refine ⟨p.claimed, ?_, p.turn⟩
    have different : k ≠ log.taken.length := by
      rintro rfl
      have := p.turn
      omega
    have := p.ahead
    omega
  have consumes : ∀ {c k}, Consumes e buffer log c k → Consumes e buffer (log.take call) c k :=
    fun p => ⟨grows.taken _ _ p.taken, p.turn⟩
  cases stake with
  | none => trivial
  | seeking | reached | ready | published => exact ok
  | claimed c x pos | written c x pos => exact ⟨produces ok.1, ok.2⟩
  | looking c => exact waiting ok (by simpa [dequeueCall] using other)
  | approached c pos =>
    exact ⟨waiting ok.1 (by simpa [dequeueCall] using other), by have := ok.2; omega⟩
  | sighted c pos =>
    obtain ⟨wait, bound, -⟩ := ok
    exact ⟨waiting wait (by simpa [dequeueCall] using other), by omega, by omega⟩
  | taken c pos => exact ⟨consumes ok.1, ok.2⟩
  | read c pos data => exact ⟨consumes ok.1, ok.2.1, ok.2.2.mono grows⟩
  | released c data => exact Delivered.mono ok grows

theorem Ok.load (ok : stake.Ok e buffer log) (owner : Consumes e buffer log call k)
    (other : stake.dequeueCall ≠ some call) :
    stake.Ok e buffer { log with loaded := log.loaded ++ [k] } := by
  cases stake with
  | none => trivial
  | seeking | reached | ready | published | looking | approached | sighted | released => exact ok
  | claimed c x pos | written c x pos => exact ⟨⟨ok.1.claimed, ok.1.ahead, ok.1.turn⟩, ok.2⟩
  | taken c pos =>
    refine ⟨⟨ok.1.taken, ok.1.turn⟩, ok.2.1, ?_⟩
    simp only [List.mem_append, List.mem_singleton, not_or]
    refine ⟨ok.2.2, ?_⟩
    intro same
    have taken := owner.taken
    rw [← same, ok.1.taken] at taken
    exact other taken
  | read c pos data => exact ⟨⟨ok.1.taken, ok.1.turn⟩, List.mem_append_left _ ok.2.1, ok.2.2⟩

theorem Ok.clear (ok : stake.Ok e buffer log) (i : Nat) :
    stake.Ok e (setData buffer i Option.none) log :=
  ok.store (fun _ turn => by simpa using turn) (fun _ turn => by simpa using turn)

/-- No caller but the consumer of position `k` relies on the slot of `k`. -/
theorem Ok.release (slots : Slots e buffer log) (ok : stake.Ok e buffer log)
    (owner : Consumes e buffer log call k) (other : stake.dequeueCall ≠ some call) :
    stake.Ok e (setSequence buffer (slot e k) value) log := by
  have inside := lt_of_taken owner.taken
  have elsewhere : stake.consuming ≠ some k := by
    intro mine
    cases stake <;> simp only [consuming, Option.some.injEq, reduceCtorEq] at mine
    all_goals exact other ((mine ▸ ok.1.taken).symm.trans owner.taken)
  refine ok.store (fun {j} _ turn =>
    (turnAt_kept slots (.inr owner.turn) (.inl turn) ?_).trans turn)
    (fun {j} mine turn => (turnAt_kept slots (.inr owner.turn) (.inr turn) ?_).trans turn)
  · rintro rfl
    exact absurd (turn.symm.trans owner.turn) (by omega)
  · rintro rfl
    exact mine.elim elsewhere (by omega)

theorem Ok.start (ok : stake.Ok e buffer log) (items : List (Option M)) (count : Nat) :
    stake.Ok e buffer
      { log with enqueues := log.enqueues ++ items, dequeues := log.dequeues + count } := by
  have waiting : ∀ {c x}, Waiting log c x →
      Waiting { log with enqueues := log.enqueues ++ items, dequeues := log.dequeues + count } c x := by
    intro c x ⟨called, fresh⟩
    refine ⟨?_, fresh⟩
    rw [List.getElem?_append_left (List.getElem?_eq_some_iff.mp called).1]
    exact called
  cases stake with
  | none => trivial
  | seeking => exact waiting ok
  | reached | ready => exact ⟨waiting ok.1, ok.2⟩
  | claimed | written => exact ⟨⟨ok.1.claimed, ok.1.ahead, ok.1.turn⟩, ok.2⟩
  | published | looking | approached | sighted | released => exact ok
  | taken | read => exact ⟨⟨ok.1.taken, ok.1.turn⟩, ok.2⟩

end Stake

structure Protocol (e : Nat) (buffer : List (Node M)) (log : Log M) (stake : T → Stake M) :
    Prop where
  slots : Slots e buffer log
  ok : ∀ t, (stake t).Ok e buffer log
  enqueueKnown : ∀ t call, (stake t).enqueueCall = some call → call < log.enqueues.length
  dequeueKnown : ∀ t call, (stake t).dequeueCall = some call → call < log.dequeues
  enqueueOwn : ∀ t u call, (stake t).enqueueCall = some call →
    (stake u).enqueueCall = some call → t = u
  dequeueOwn : ∀ t u call, (stake t).dequeueCall = some call →
    (stake u).dequeueCall = some call → t = u
  /-- Somebody is about to publish every claimed slot that is not published. -/
  produced : ∀ k, k < log.claimed.length → turnAt e buffer k = k → ∃ t, (stake t).producing = some k
  /-- Somebody is about to release every taken slot that is not released. -/
  consumed : ∀ k, k < log.taken.length → turnAt e buffer k = k + 1 →
    ∃ t, (stake t).consuming = some k

theorem Protocol.fresh (two : 1 ≤ e) (fits : e ≤ 62) :
    Protocol e (Ring.fresh (2 ^ e) : List (Node M)) {} (fun _ : T => Stake.none) where
  slots := .fresh two fits
  ok := fun _ => trivial
  enqueueKnown := by simp [Stake.enqueueCall]
  dequeueKnown := by simp [Stake.dequeueCall]
  enqueueOwn := by simp [Stake.enqueueCall]
  dequeueOwn := by simp [Stake.dequeueCall]
  produced := by simp
  consumed := by simp

namespace Protocol

variable {e : Nat} {buffer after : List (Node M)} {log log' : Log M} {stake : T → Stake M} {t : T}

variable {call : Nat}

section

variable (protocol : Protocol e buffer log stake)
include protocol

/-- A producer that nobody has told its position apart relies on no one else's call. -/
theorem other_enqueue (mine : (stake t).enqueueCall = some call)
    (other : u ≠ t) : (stake u).enqueueCall ≠ some call :=
  fun theirs => other (protocol.enqueueOwn u t call theirs mine)

theorem other_dequeue (mine : (stake t).dequeueCall = some call)
    (other : u ≠ t) : (stake u).dequeueCall ≠ some call :=
  fun theirs => other (protocol.dequeueOwn u t call theirs mine)

/-- Without a stake in it every position is either published or not yet claimed. -/
theorem published_of_idle (idle : ∀ t, (stake t).producing = none)
    (low : log.taken.length ≤ k) (high : k < log.claimed.length) : turnAt e buffer k = k + 1 := by
  have bounded := protocol.slots.bounded
  cases protocol.slots.window k low (by omega) with
  | claimed inside turn =>
    obtain ⟨t, mine⟩ := protocol.produced k inside turn
    rw [idle t] at mine
    cases mine
  | published inside turn => exact turn
  | free ahead turn => omega
  | held ahead old turn => omega

end

variable [DecidableEq T]

variable {new : Stake M}

/-- One property of all callers, after one of them has changed its stake. -/
theorem forall_update {P : T → Stake M → Prop} (own : P t new)
    (others : ∀ u, u ≠ t → P u (stake u)) : ∀ u, P u (Function.update stake t new u) :=
  (Function.forall_update_iff stake P).mpr ⟨own, others⟩

theorem own_update {callOf : Stake M → Option Nat}
    (own : ∀ t u call, callOf (stake t) = some call → callOf (stake u) = some call → t = u)
    (keeps : ∀ call, callOf new = some call →
      callOf (stake t) = some call ∨ ∀ u, callOf (stake u) ≠ some call) :
    ∀ a b call, callOf (Function.update stake t new a) = some call →
      callOf (Function.update stake t new b) = some call → a = b := by
  have back {a call} (found : callOf (Function.update stake t new a) = some call) :
      callOf (stake a) = some call ∨ a = t ∧ ∀ u, callOf (stake u) ≠ some call := by
    by_cases here : a = t
    · subst here
      exact (keeps call (by simpa using found)).imp_right fun fresh => ⟨rfl, fresh⟩
    · exact .inl (by simpa [Function.update_of_ne here] using found)
  intro a b call left right
  obtain one | ⟨rfl, fresh⟩ := back left <;> obtain two | ⟨rfl, fresh'⟩ := back right
  · exact own a b call one two
  · exact absurd one (fresh' a)
  · exact absurd two (fresh b)
  · rfl

theorem known_update {callOf : Stake M → Option Nat} {n m : Nat}
    (known : ∀ t call, callOf (stake t) = some call → call < n) (grows : n ≤ m)
    (own : ∀ call, callOf new = some call → call < m) :
    ∀ u call, callOf (Function.update stake t new u) = some call → call < m :=
  forall_update (P := fun _ stake => ∀ call, callOf stake = some call → call < m) own
    fun u _ call found => Nat.lt_of_lt_of_le (known u call found) grows

/-- The common part of all rules: one caller changes its stake and nobody's call. -/
theorem update (protocol : Protocol e buffer log stake) (slots : Slots e after log')
    (own : new.Ok e after log') (others : ∀ u, u ≠ t → (stake u).Ok e after log')
    (enqueueKeeps : ∀ call, new.enqueueCall = some call → (stake t).enqueueCall = some call)
    (dequeueKeeps : ∀ call, new.dequeueCall = some call → (stake t).dequeueCall = some call)
    (enqueues : log'.enqueues = log.enqueues) (dequeues : log'.dequeues = log.dequeues)
    (produced : ∀ k, k < log'.claimed.length → turnAt e after k = k →
      ∃ u, (Function.update stake t new u).producing = some k)
    (consumed : ∀ k, k < log'.taken.length → turnAt e after k = k + 1 →
      ∃ u, (Function.update stake t new u).consuming = some k) :
    Protocol e after log' (Function.update stake t new) where
  slots := slots
  ok := forall_update own others
  enqueueKnown := by
    rw [enqueues]
    exact known_update protocol.enqueueKnown le_rfl fun call found =>
      protocol.enqueueKnown t call (enqueueKeeps call found)
  dequeueKnown := by
    rw [dequeues]
    exact known_update protocol.dequeueKnown le_rfl fun call found =>
      protocol.dequeueKnown t call (dequeueKeeps call found)
  enqueueOwn := own_update protocol.enqueueOwn fun call found => .inl (enqueueKeeps call found)
  dequeueOwn := own_update protocol.dequeueOwn fun call found => .inl (dequeueKeeps call found)
  produced := produced
  consumed := consumed

theorem exists_update {at_ : Stake M → Option Nat} (found : ∃ u, at_ (stake u) = some k)
    (keeps : at_ (stake t) = some k → at_ new = some k) :
    ∃ u, at_ (Function.update stake t new u) = some k := by
  obtain ⟨u, mine⟩ := found
  by_cases same : u = t
  · subst same
    exact ⟨u, by simpa using keeps mine⟩
  · exact ⟨u, by simpa [Function.update_of_ne same] using mine⟩

section

variable (protocol : Protocol e buffer log stake)
include protocol

/-- A caller learns something, or leaves, and touches nothing shared. -/
theorem move (own : new.Ok e buffer log)
    (enqueueKeeps : ∀ call, new.enqueueCall = some call → (stake t).enqueueCall = some call)
    (dequeueKeeps : ∀ call, new.dequeueCall = some call → (stake t).dequeueCall = some call)
    (producing : (stake t).producing = none) (consuming : (stake t).consuming = none) :
    Protocol e buffer log (Function.update stake t new) := by
  apply protocol.update protocol.slots own
    (fun u _ => protocol.ok u) enqueueKeeps dequeueKeeps rfl rfl
  · intro k inside turn
    exact exists_update (protocol.produced k inside turn) (by rw [producing]; simp)
  · intro k inside turn
    exact exists_update (protocol.consumed k inside turn) (by rw [consuming]; simp)

theorem leave (producing : (stake t).producing = none)
    (consuming : (stake t).consuming = none) :
    Protocol e buffer log (Function.update stake t .none) :=
  protocol.move trivial (by simp [Stake.enqueueCall])
    (by simp [Stake.dequeueCall]) producing consuming

theorem startEnqueue (idle : stake t = .none) (item : Option M) :
    Protocol e buffer { log with enqueues := log.enqueues ++ [item] }
      (Function.update stake t (.seeking log.enqueues.length item)) where
  slots := protocol.slots.start [item] 0
  ok := forall_update ⟨by simp, protocol.slots.not_claimed⟩ fun u _ =>
    (protocol.ok u).start [item] 0
  enqueueKnown := known_update protocol.enqueueKnown (by simp) (by simp [Stake.enqueueCall])
  dequeueKnown := known_update protocol.dequeueKnown le_rfl (by simp [Stake.dequeueCall])
  enqueueOwn := by
    apply own_update protocol.enqueueOwn
    intro call found
    refine .inr fun u theirs => ?_
    have := protocol.enqueueKnown u call theirs
    obtain rfl : log.enqueues.length = call := by simpa [Stake.enqueueCall] using found
    omega
  dequeueOwn := own_update protocol.dequeueOwn (by simp [Stake.dequeueCall])
  produced := fun k inside turn =>
    exists_update (protocol.produced k inside turn) (by simp [idle, Stake.producing])
  consumed := fun k inside turn =>
    exists_update (protocol.consumed k inside turn) (by simp [idle, Stake.consuming])

theorem startDequeue (idle : stake t = .none) :
    Protocol e buffer { log with dequeues := log.dequeues + 1 }
      (Function.update stake t (.looking log.dequeues)) where
  slots := by simpa using protocol.slots.start [] 1
  ok := forall_update protocol.slots.not_taken fun u _ => by simpa using (protocol.ok u).start [] 1
  enqueueKnown := known_update protocol.enqueueKnown le_rfl (by simp [Stake.enqueueCall])
  dequeueKnown := known_update protocol.dequeueKnown (by simp) (by simp [Stake.dequeueCall])
  enqueueOwn := own_update protocol.enqueueOwn (by simp [Stake.enqueueCall])
  dequeueOwn := by
    apply own_update protocol.dequeueOwn
    intro call found
    refine .inr fun u theirs => ?_
    have := protocol.dequeueKnown u call theirs
    obtain rfl : log.dequeues = call := by simpa [Stake.dequeueCall] using found
    omega
  produced := fun k inside turn =>
    exists_update (protocol.produced k inside turn) (by simp [idle, Stake.producing])
  consumed := fun k inside turn =>
    exists_update (protocol.consumed k inside turn) (by simp [idle, Stake.consuming])

end

variable {item : Option M} {call k : Nat}

variable (protocol : Protocol e buffer log stake)
include protocol

theorem claim (mine : (stake t).enqueueCall = some call)
    (waiting : Waiting log call item)
    (ready : turnAt e buffer log.claimed.length = log.claimed.length)
    (producing : (stake t).producing = none) (consuming : (stake t).consuming = none) :
    Protocol e buffer (log.claim call item)
      (Function.update stake t (.claimed call item log.claimed.length)) := by
  have grown : (log.claim call item).claimed.length = log.claimed.length + 1 := by simp [Log.claim]
  apply protocol.update (protocol.slots.claim waiting ready)
  · refine ⟨⟨by simp [Log.claim], protocol.slots.ordered, ready⟩, ?_⟩
    intro written
    exact Nat.lt_irrefl _ (protocol.slots.writtenClaimed _ written)
  · intro u other
    exact (protocol.ok u).claim item (protocol.other_enqueue mine other)
  · simpa [Stake.enqueueCall] using mine
  · simp [Stake.dequeueCall]
  · rfl
  · rfl
  · intro k inside turn
    by_cases last : k = log.claimed.length
    · exact ⟨t, by simp [Stake.producing, last]⟩
    · exact exists_update (protocol.produced k (by omega) turn) (by rw [producing]; simp)
  · intro k inside turn
    exact exists_update (protocol.consumed k inside turn) (by rw [consuming]; simp)

theorem write (here : stake t = .claimed call item k) :
    Protocol e (setData buffer (slot e k) item) { log with written := log.written ++ [k] }
      (Function.update stake t (.written call item k)) := by
  have mine : (stake t).enqueueCall = some call := by rw [here]; rfl
  obtain ⟨owner, unwritten⟩ : Stake.Ok e buffer log (.claimed call item k) := here ▸ protocol.ok t
  apply protocol.update (protocol.slots.write owner)
  · exact ⟨⟨owner.claimed, owner.ahead, by simpa using owner.turn⟩, by simp⟩
  · intro u other
    exact (protocol.ok u).write owner (protocol.other_enqueue mine other)
  · simpa [Stake.enqueueCall] using mine
  · simp [Stake.dequeueCall]
  · rfl
  · rfl
  · intro j inside turn
    exact exists_update (protocol.produced j inside (by simpa using turn))
      (by simp [here, Stake.producing])
  · intro j inside turn
    exact exists_update (protocol.consumed j inside (by simpa using turn))
      (by simp [here, Stake.consuming])

theorem publish (here : stake t = .written call item k) (next : value.toNat = k + 1) :
    Protocol e (setSequence buffer (slot e k) value) log
      (Function.update stake t (.published call)) := by
  have mine : (stake t).enqueueCall = some call := by rw [here]; rfl
  have size := protocol.slots.size
  have two := protocol.slots.two
  obtain ⟨owner, written⟩ : Stake.Ok e buffer log (.written call item k) := here ▸ protocol.ok t
  apply protocol.update (protocol.slots.publish next owner written)
  · exact ⟨k, item, owner.claimed, written⟩
  · intro u other
    exact (protocol.ok u).publish protocol.slots owner (protocol.other_enqueue mine other)
  · simpa [Stake.enqueueCall] using mine
  · simp [Stake.dequeueCall]
  · rfl
  · rfl
  · intro j inside turn
    by_cases same : slot e k = slot e j
    · rw [turnAt_setSequence_same size _ same, next] at turn
      exact absurd turn.symm (turn_clash two same.symm)
    · rw [turnAt_setSequence_ne size _ same] at turn
      refine exists_update (protocol.produced j inside turn) ?_
      rw [here, Stake.producing]
      rintro found
      exact absurd (congrArg (slot e) (Option.some.inj found)) same
  · intro j inside turn
    by_cases same : slot e k = slot e j
    · rw [turnAt_setSequence_same size _ same, next] at turn
      have := owner.ahead
      omega
    · rw [turnAt_setSequence_ne size _ same] at turn
      exact exists_update (protocol.consumed j inside turn) (by simp [here, Stake.consuming])

theorem take (mine : (stake t).dequeueCall = some call)
    (waiting : call ∉ log.taken) (ready : turnAt e buffer log.taken.length = log.taken.length + 1)
    (producing : (stake t).producing = none) (consuming : (stake t).consuming = none) :
    Protocol e buffer (log.take call)
      (Function.update stake t (.taken call log.taken.length)) := by
  have grown : (log.take call).taken.length = log.taken.length + 1 := by simp [Log.take]
  obtain ⟨-, written, unread⟩ := protocol.slots.ready ready
  apply protocol.update (protocol.slots.take waiting (protocol.dequeueKnown t call mine) ready)
  · exact ⟨⟨by simp [Log.take], ready⟩, written, unread⟩
  · intro u other
    exact (protocol.ok u).take (protocol.other_dequeue mine other) ready
  · simp [Stake.enqueueCall]
  · simpa [Stake.dequeueCall] using mine
  · rfl
  · rfl
  · intro k inside turn
    exact exists_update (protocol.produced k inside turn) (by rw [producing]; simp)
  · intro k inside turn
    by_cases last : k = log.taken.length
    · exact ⟨t, by simp [Stake.consuming, last]⟩
    · exact exists_update (protocol.consumed k (by omega) turn) (by rw [consuming]; simp)

theorem load (here : stake t = .taken call k) :
    Protocol e buffer { log with loaded := log.loaded ++ [k] }
      (Function.update stake t (.read call k (dataAt buffer (slot e k)))) := by
  have mine : (stake t).dequeueCall = some call := by rw [here]; rfl
  obtain ⟨owner, written, unread⟩ : Stake.Ok e buffer log (.taken call k) := here ▸ protocol.ok t
  apply protocol.update (protocol.slots.load owner)
  · exact ⟨⟨owner.taken, owner.turn⟩, by simp,
      (protocol.slots.loads owner written unread).mono (.load log k)⟩
  · intro u other
    exact (protocol.ok u).load owner (protocol.other_dequeue mine other)
  · simp [Stake.enqueueCall]
  · simpa [Stake.dequeueCall] using mine
  · rfl
  · rfl
  · intro j inside turn
    exact exists_update (protocol.produced j inside turn) (by simp [here, Stake.producing])
  · intro j inside turn
    exact exists_update (protocol.consumed j inside turn) (by simp [here, Stake.consuming])

theorem clear (here : stake t = .read call k data) :
    Protocol e (setData buffer (slot e k) none) log
      (Function.update stake t (.read call k data)) := by
  obtain ⟨owner, read, delivered⟩ : Stake.Ok e buffer log (.read call k data) :=
    here ▸ protocol.ok t
  apply protocol.update (protocol.slots.clear owner read)
  · exact ⟨⟨owner.taken, by simpa using owner.turn⟩, read, delivered⟩
  · intro u other
    exact (protocol.ok u).clear _
  · simp [Stake.enqueueCall]
  · simp [here]
  · rfl
  · rfl
  · intro j inside turn
    exact exists_update (protocol.produced j inside (by simpa using turn))
      (by simp [here, Stake.producing])
  · intro j inside turn
    exact exists_update (protocol.consumed j inside (by simpa using turn)) (by simp [here])

theorem release (here : stake t = .read call k data) (next : value.toNat = k + 2 ^ e) :
    Protocol e (setSequence buffer (slot e k) value) log
      (Function.update stake t (.released call data)) := by
  have mine : (stake t).dequeueCall = some call := by rw [here]; rfl
  have size := protocol.slots.size
  have two := protocol.slots.two
  obtain ⟨owner, read, delivered⟩ : Stake.Ok e buffer log (.read call k data) :=
    here ▸ protocol.ok t
  have slots := protocol.slots.release next owner read
  apply protocol.update slots
  · exact delivered
  · intro u other
    exact (protocol.ok u).release protocol.slots owner (protocol.other_dequeue mine other)
  · simp [Stake.enqueueCall]
  · simpa [Stake.dequeueCall] using mine
  · rfl
  · rfl
  · intro j inside turn
    by_cases same : slot e k = slot e j
    · -- before the release the slot of `j` showed `k + 1`, so `j` was not claimed
      have ahead : log.taken.length ≤ j := by
        by_contra taken
        have := slots.turn_of_taken (Nat.lt_of_not_le taken)
        omega
      have shown : turnAt e buffer j = k + 1 := (turnAt_congr same.symm).trans owner.turn
      rw [turnAt_setSequence_same size _ same, next] at turn
      have turns : 2 ^ 1 ≤ 2 ^ e := Nat.pow_le_pow_right (by omega) two
      have bounded := protocol.slots.bounded
      cases protocol.slots.window j ahead (by omega) <;> omega
    · rw [turnAt_setSequence_ne size _ same] at turn
      exact exists_update (protocol.produced j inside turn) (by simp [here, Stake.producing])
  · intro j inside turn
    by_cases same : slot e k = slot e j
    · rw [turnAt_setSequence_same size _ same, next] at turn
      have around : slot e (j + 1) = slot e j := by
        rw [← turn, slot_add_turn, same]
      exact absurd around (slot_succ_ne two j)
    · rw [turnAt_setSequence_ne size _ same] at turn
      refine exists_update (protocol.consumed j inside turn) ?_
      rw [here, Stake.consuming]
      rintro found
      exact absurd (congrArg (slot e) (Option.some.inj found)) same

end Protocol

end Portask.Lib.Ring
