import Mathlib.Data.List.Nodup
import Mathlib.Data.List.Perm.Subperm
import Portask.Lib.SequencedRing

/-! # A sequenced ring in use by many callers

Producers and consumers number their calls and win positions one after the other; the
log records who won which position, and which positions have been written and read.
Write `E` for the number of positions claimed by producers and `D` for those taken by
consumers. Each slot belongs to exactly one position `p` of the window from `D` to
`D + 2 ^ e`. Below `E` its sequence is `p` until its producer publishes and `p + 1`
after; from `E` on it is `p`, or still that of the previous turn while its consumer
has not released it.

`Slots` states this, and has one rule for every way in which a slot or the log may
change. How a caller wins a position is not a matter of this file.
-/

namespace Portask.Lib.Ring

variable {M : Type}

structure Log (M : Type) where
  /-- The items of the calls of producers; a call is named by its place. -/
  enqueues : List (Option M) := []
  /-- How many calls of consumers there have been. -/
  dequeues : Nat := 0
  /-- Call and item of the producer of each position. -/
  claimed : List (Nat × Option M) := []
  /-- Call of the consumer of each position. -/
  taken : List Nat := []
  /-- Positions whose item has been stored in its slot. -/
  written : List Nat := []
  /-- Positions whose item has been loaded from its slot. -/
  loaded : List Nat := []

def Log.claim (log : Log M) (call : Nat) (item : Option M) : Log M :=
  { log with claimed := log.claimed ++ [(call, item)] }

def Log.take (log : Log M) (call : Nat) : Log M := { log with taken := log.taken ++ [call] }

/-- The sequence of the slot of position `k`, as a number. -/
def turnAt (e : Nat) (buffer : List (Node M)) (k : Nat) : Nat :=
  (sequenceAt buffer (slot e k)).toNat

/-- A call of a producer that has not won a position. -/
def Waiting (log : Log M) (call : Nat) (item : Option M) : Prop :=
  log.enqueues[call]? = some item ∧ call ∉ log.claimed.map Prod.fst

/-- The call owns the slot of position `k` as its producer. -/
structure Produces (e : Nat) (buffer : List (Node M)) (log : Log M) (call : Nat) (item : Option M)
    (k : Nat) : Prop where
  claimed : log.claimed[k]? = some (call, item)
  ahead : log.taken.length ≤ k
  turn : turnAt e buffer k = k

/-- The call owns the slot of position `k` as its consumer. -/
structure Consumes (e : Nat) (buffer : List (Node M)) (log : Log M) (call : Nat) (k : Nat) :
    Prop where
  taken : log.taken[k]? = some call
  turn : turnAt e buffer k = k + 1

/-- The call won a position and has stored its item there. -/
def Accepted (log : Log M) (call : Nat) : Prop :=
  ∃ (k : Nat) (item : Option M), log.claimed[k]? = some (call, item) ∧ k ∈ log.written

/-- The call took the position whose item is `data`. -/
def Delivered (log : Log M) (call : Nat) (data : Option M) : Prop :=
  ∃ k producer : Nat, log.taken[k]? = some call ∧ log.claimed[k]? = some (producer, data)

/-- What the slot of position `p` of the window shows. -/
inductive SlotOk (e : Nat) (buffer : List (Node M)) (log : Log M) (p : Nat) : Prop where
  | claimed (inside : p < log.claimed.length) (turn : turnAt e buffer p = p)
  | published (inside : p < log.claimed.length) (turn : turnAt e buffer p = p + 1)
      (written : p ∈ log.written) (unread : p ∉ log.loaded)
  | free (ahead : log.claimed.length ≤ p) (turn : turnAt e buffer p = p)
  | held (ahead : log.claimed.length ≤ p) (old : 2 ^ e ≤ p)
      (turn : turnAt e buffer p + 2 ^ e = p + 1)

/-- The item of a written position stays in its slot until it is read. -/
structure Live (e : Nat) (buffer : List (Node M)) (log : Log M) (k : Nat) : Prop where
  turn : turnAt e buffer k = k ∨ turnAt e buffer k = k + 1
  item : (log.claimed[k]?).map Prod.snd = some (dataAt buffer (slot e k))

structure Slots (e : Nat) (buffer : List (Node M)) (log : Log M) : Prop where
  two : 1 ≤ e
  fits : e ≤ 62
  size : buffer.length = 2 ^ e
  ordered : log.taken.length ≤ log.claimed.length
  bounded : log.claimed.length ≤ log.taken.length + 2 ^ e
  called : ∀ call item, (call, item) ∈ log.claimed → log.enqueues[call]? = some item
  claimedOnce : (log.claimed.map Prod.fst).Nodup
  takenOnce : log.taken.Nodup
  takenCalled : ∀ call ∈ log.taken, call < log.dequeues
  writtenClaimed : ∀ k ∈ log.written, k < log.claimed.length
  loadedTaken : ∀ k ∈ log.loaded, k < log.taken.length
  window : ∀ p, log.taken.length ≤ p → p < log.taken.length + 2 ^ e → SlotOk e buffer log p
  live : ∀ k ∈ log.written, k ∉ log.loaded → Live e buffer log k

variable {log : Log M}

/-- Two calls at one claimed position are the same. -/
theorem call_of_claimed {k a b : Nat} (left : log.claimed[k]? = some (a, x))
    (right : log.claimed[k]? = some (b, y)) : a = b := by
  rw [left] at right
  exact congrArg Prod.fst (Option.some.inj right)

theorem lt_of_claimed (claimed : log.claimed[k]? = some x) : k < log.claimed.length :=
  (List.getElem?_eq_some_iff.mp claimed).1

theorem lt_of_taken (taken : log.taken[k]? = some call) : k < log.taken.length :=
  (List.getElem?_eq_some_iff.mp taken).1

variable {e : Nat} {buffer : List (Node M)} {j k : Nat}

theorem turnAt_congr (same : slot e j = slot e k) : turnAt e buffer j = turnAt e buffer k := by
  rw [turnAt, turnAt, same]

theorem turn_clash (two : 1 ≤ e) (same : slot e j = slot e k) : j ≠ k + 1 := by
  rintro rfl
  exact slot_succ_ne two k same

theorem getElem?_snoc {α : Type} {l : List α} {k : Nat} {x y : α} (found : l[k]? = some x) :
    (l ++ [y])[k]? = some x := by
  rw [List.getElem?_append_left (List.getElem?_eq_some_iff.mp found).1]
  exact found

section

variable (slots : Slots e buffer log)
include slots

theorem Slots.slot_inside (k : Nat) : slot e k < buffer.length := by
  rw [slots.size]
  exact slot_lt e k

theorem Slots.claimed_le : log.claimed.length ≤ log.enqueues.length := by
  have inside : log.claimed.map Prod.fst ⊆ List.range log.enqueues.length := by
    intro call member
    obtain ⟨⟨_, item⟩, claim, rfl⟩ := List.mem_map.mp member
    exact List.mem_range.mpr (List.getElem?_eq_some_iff.mp (slots.called _ item claim)).1
  simpa using (List.subperm_of_subset slots.claimedOnce inside).length_le

theorem Slots.index_of_claimed {j k call : Nat}
    (left : log.claimed[j]? = some (call, x)) (right : log.claimed[k]? = some (call, y)) :
    j = k := by
  have found : (log.claimed.map Prod.fst)[j]? = (log.claimed.map Prod.fst)[k]? := by
    simp [left, right]
  exact (List.getElem?_inj (by simpa using lt_of_claimed left) slots.claimedOnce).mp found

theorem Slots.index_of_taken {j k call : Nat} (left : log.taken[j]? = some call)
    (right : log.taken[k]? = some call) : j = k :=
  (List.getElem?_inj (lt_of_taken left) slots.takenOnce).mp (left.trans right.symm)

theorem Slots.not_claimed : log.enqueues.length ∉ log.claimed.map Prod.fst := by
  intro claimed
  obtain ⟨⟨_, x⟩, member, same⟩ := List.mem_map.mp claimed
  have := (List.getElem?_eq_some_iff.mp (slots.called _ x member)).1
  simp only at same
  omega

theorem Slots.not_taken : log.dequeues ∉ log.taken := by
  intro member
  exact Nat.lt_irrefl _ (slots.takenCalled _ member)

end

theorem exists_window (e low j : Nat) : ∃ p, low ≤ p ∧ p < low + 2 ^ e ∧ slot e p = slot e j := by
  have positive := Nat.two_pow_pos e
  have enough : low ≤ 2 ^ e * low := Nat.le_mul_of_pos_left low positive
  refine ⟨low + (j + 2 ^ e * low - low) % 2 ^ e, by omega, ?_, ?_⟩
  · have := Nat.mod_lt (j + 2 ^ e * low - low) positive
    omega
  · rw [slot, Nat.add_mod_mod, Nat.add_sub_cancel' (Nat.le_add_left_of_le enough),
      Nat.add_mul_mod_self_left, slot]

theorem Slots.turn_of_taken (slots : Slots e buffer log) (taken : j < log.taken.length) :
    j + 1 ≤ turnAt e buffer j := by
  obtain ⟨p, low, high, same⟩ := exists_window e log.taken.length j
  have turns : turnAt e buffer p = turnAt e buffer j := turnAt_congr same
  have around : j + 2 ^ e ≤ p := by
    by_contra near
    have := eq_of_slot_eq same (by omega) (by omega)
    omega
  cases slots.window p low high <;> omega

/-- The log only grows; what a call has won it keeps. -/
structure Log.Grows (log after : Log M) : Prop where
  claimed : ∀ (k : Nat) x, log.claimed[k]? = some x → after.claimed[k]? = some x
  taken : ∀ (k : Nat) call, log.taken[k]? = some call → after.taken[k]? = some call
  written : ∀ k ∈ log.written, k ∈ after.written

variable {call : Nat}

theorem Accepted.mono {log after : Log M} (accepted : Accepted log call) (grows : log.Grows after) :
    Accepted after call := by
  obtain ⟨k, x, claimed, written⟩ := accepted
  exact ⟨k, x, grows.claimed k _ claimed, grows.written k written⟩

theorem Delivered.mono {data : Option M} (delivered : Delivered log call data)
    (grows : log.Grows after) : Delivered after call data := by
  obtain ⟨k, producer, taken, claimed⟩ := delivered
  exact ⟨k, producer, grows.taken k _ taken, grows.claimed k _ claimed⟩

section

variable (log : Log M)

theorem Log.Grows.refl : log.Grows log := ⟨fun _ _ => id, fun _ _ => id, fun _ => id⟩

theorem Log.Grows.claim (call : Nat) (item : Option M) : log.Grows (log.claim call item) :=
  ⟨fun _ _ => getElem?_snoc, fun _ _ => id, fun _ => id⟩

theorem Log.Grows.take (call : Nat) : log.Grows (log.take call) :=
  ⟨fun _ _ => id, fun _ _ => getElem?_snoc, fun _ => id⟩

theorem Log.Grows.write (k : Nat) : log.Grows { log with written := log.written ++ [k] } :=
  ⟨fun _ _ => id, fun _ _ => id, fun _ => List.mem_append_left _⟩

theorem Log.Grows.load (k : Nat) : log.Grows { log with loaded := log.loaded ++ [k] } :=
  ⟨fun _ _ => id, fun _ _ => id, fun _ => id⟩

theorem Log.Grows.startEnqueue (item : Option M) :
    log.Grows { log with enqueues := log.enqueues ++ [item] } :=
  ⟨fun _ _ => id, fun _ _ => id, fun _ => id⟩

theorem Log.Grows.startDequeue : log.Grows { log with dequeues := log.dequeues + 1 } :=
  ⟨fun _ _ => id, fun _ _ => id, fun _ => id⟩

/-! ## Deliveries

Each position pairs the call that took it with the item it was claimed for. -/

def Log.deliveries : List (Nat × Option M) :=
  log.taken.zip ((log.claimed.map Prod.snd).take log.taken.length)

end

theorem Log.mem_deliveries : (call, data) ∈ log.deliveries ↔ Delivered log call data := by
  simp only [deliveries, List.mem_iff_getElem?, List.getElem?_zip_eq_some, Delivered]
  constructor
  · rintro ⟨k, taken, found⟩
    rw [List.getElem?_take_of_lt (lt_of_taken taken), List.getElem?_map,
      Option.map_eq_some_iff] at found
    obtain ⟨⟨producer, item⟩, claimed, rfl⟩ := found
    exact ⟨k, producer, taken, claimed⟩
  · rintro ⟨k, producer, taken, claimed⟩
    refine ⟨k, taken, ?_⟩
    rw [List.getElem?_take_of_lt (lt_of_taken taken), List.getElem?_map, claimed]
    rfl

theorem Slots.deliveries_fst (slots : Slots e buffer log) :
    log.deliveries.map Prod.fst = log.taken :=
  List.map_fst_zip (by simp [slots.ordered])

theorem Log.deliveries_snd (log : Log M) :
    log.deliveries.map Prod.snd = (log.claimed.map Prod.snd).take log.taken.length :=
  List.map_snd_zip (List.length_take_le _ _)

theorem Slots.deliveries_nodup (slots : Slots e buffer log) : log.deliveries.Nodup :=
  List.Nodup.of_map Prod.fst (by rw [slots.deliveries_fst]; exact slots.takenOnce)

theorem subperm_image {α β : Type} {l l' : List α} (f : α → β) (sub : l.Subperm l') :
    (l.map f).Subperm (l'.map f) := by
  obtain ⟨m, perm, sublist⟩ := sub
  exact ⟨m.map f, perm.map f, sublist.map f⟩

/-- No item is claimed more often than it was given to a producer. -/
theorem Slots.claimed_subperm (slots : Slots e buffer log) :
    (log.claimed.map Prod.snd).Subperm log.enqueues := by
  have inside : log.claimed ⊆ (List.range log.enqueues.length).zip log.enqueues := by
    rintro ⟨call, item⟩ member
    have called := slots.called call item member
    have bound := (List.getElem?_eq_some_iff.mp called).1
    exact List.mem_iff_getElem?.mpr ⟨call, List.getElem?_zip_eq_some.mpr ⟨by simp [bound], called⟩⟩
  have sub := subperm_image Prod.snd
    (List.subperm_of_subset (List.Nodup.of_map _ slots.claimedOnce) inside)
  rwa [List.map_snd_zip (by simp)] at sub

/-- The slot a producer finds ready is not the oldest one still in use. -/
theorem Slots.room (slots : Slots e buffer log)
    (ready : turnAt e buffer log.claimed.length = log.claimed.length) :
    log.claimed.length < log.taken.length + 2 ^ e := by
  have turn : 2 ^ 1 ≤ 2 ^ e := Nat.pow_le_pow_right (by omega) slots.two
  by_contra full
  have edge : log.claimed.length = log.taken.length + 2 ^ e := by
    have := slots.bounded
    omega
  have same : turnAt e buffer log.taken.length = log.taken.length + 2 ^ e := by
    rw [← edge, ← ready, edge]
    exact (turnAt_congr (slot_add_turn e _)).symm
  cases slots.window log.taken.length le_rfl (by omega) <;> omega

variable {item : Option M} {call k : Nat} {buffer after : List (Node M)}

theorem Slots.claim (slots : Slots e buffer log) (waiting : Waiting log call item)
    (ready : turnAt e buffer log.claimed.length = log.claimed.length) :
    Slots e buffer (log.claim call item) := by
  have grown : (log.claim call item).claimed.length = log.claimed.length + 1 := by simp [Log.claim]
  have room := slots.room ready
  exact {
    __ := slots
    ordered := by
      have ordered := slots.ordered
      rw [grown]
      exact Nat.le_succ_of_le ordered
    bounded := by rw [grown]; exact room
    called := by
      intro other x member
      rcases List.mem_append.mp member with old | new
      · exact slots.called other x old
      · obtain ⟨rfl, rfl⟩ := Prod.mk.inj (List.mem_singleton.mp new)
        exact waiting.1
    claimedOnce := by
      simp only [Log.claim, List.map_append, List.map_cons, List.map_nil]
      exact slots.claimedOnce.append (List.nodup_singleton _) (by simpa using waiting.2)
    writtenClaimed := by
      intro k member
      have := slots.writtenClaimed k member
      omega
    window := by
      intro p low high
      by_cases next : p = log.claimed.length
      · subst next
        exact .claimed (by omega) ready
      · cases slots.window p low high with
        | claimed inside turn => exact .claimed (by omega) turn
        | published inside turn written unread => exact .published (by omega) turn written unread
        | free ahead turn => exact .free (by omega) turn
        | held ahead old turn => exact .held (by omega) old turn
    live := by
      intro k written unread
      have live := slots.live k written unread
      refine ⟨live.turn, ?_⟩
      rw [Log.claim, List.getElem?_append_left (slots.writtenClaimed k written)]
      exact live.item }

/-! ## Writing a slot

The stores into a slot change neither positions nor claims. -/

theorem Slots.store (slots : Slots e buffer log) (size : after.length = buffer.length)
    (writtenClaimed : ∀ k ∈ written, k < log.claimed.length)
    (loadedTaken : ∀ k ∈ loaded, k < log.taken.length)
    (window : ∀ p, log.taken.length ≤ p → p < log.taken.length + 2 ^ e →
      SlotOk e after { log with written, loaded } p)
    (live : ∀ k ∈ written, k ∉ loaded → Live e after { log with written, loaded } k) :
    Slots e after { log with written, loaded } where
  __ := slots
  size := size.trans slots.size
  writtenClaimed := writtenClaimed
  loadedTaken := loadedTaken
  window := window
  live := live

@[simp] theorem turnAt_setData (e : Nat) (buffer : List (Node M)) (i k : Nat) (item : Option M) :
    turnAt e (setData buffer i item) k = turnAt e buffer k := by
  simp [turnAt]

theorem turnAt_setSequence_same (size : buffer.length = 2 ^ e) (value : UInt64)
    (same : slot e k = slot e j) :
    turnAt e (setSequence buffer (slot e k) value) j = value.toNat := by
  rw [turnAt, sequenceAt_setSequence _ _ _ (by rw [size]; exact slot_lt e k), if_pos same]

theorem turnAt_setSequence_ne (size : buffer.length = 2 ^ e) (value : UInt64)
    (other : slot e k ≠ slot e j) :
    turnAt e (setSequence buffer (slot e k) value) j = turnAt e buffer j := by
  rw [turnAt, sequenceAt_setSequence _ _ _ (by rw [size]; exact slot_lt e k), if_neg other, turnAt]

theorem SlotOk.congr (ok : SlotOk e buffer log p) (turns : turnAt e after p = turnAt e buffer p)
    (claimed : after'.claimed = log.claimed) (written : p ∈ log.written → p ∈ after'.written)
    (unread : p ∉ log.loaded → p ∉ after'.loaded) : SlotOk e after after' p := by
  cases ok with
  | claimed inside turn => exact .claimed (by rwa [claimed]) (turns.trans turn)
  | published inside turn was not =>
    exact .published (by rwa [claimed]) (turns.trans turn) (written was) (unread not)
  | free ahead turn => exact .free (by rwa [claimed]) (turns.trans turn)
  | held ahead old turn => exact .held (by rwa [claimed]) old (by rw [turns]; exact turn)

/-- A producer is the only one whose position shows in its slot. -/
theorem Live.elsewhere (two : 1 ≤ e) (live : Live e buffer log j) (turn : turnAt e buffer k = k)
    (other : j ≠ k) : slot e k ≠ slot e j := by
  intro same
  have shown : turnAt e buffer j = k := (turnAt_congr same.symm).trans turn
  rcases live.turn with mine | mine
  · omega
  · exact turn_clash two same (by omega)

theorem Slots.write (slots : Slots e buffer log) (owner : Produces e buffer log call item k) :
    Slots e (setData buffer (slot e k) item) { log with written := log.written ++ [k] } := by
  have inside := slots.slot_inside k
  apply slots.store (by simp)
  · exact forall_mem_concat slots.writtenClaimed (lt_of_claimed owner.claimed)
  · exact slots.loadedTaken
  · intro p low high
    exact (slots.window p low high).congr (by simp) rfl (fun old => List.mem_append_left _ old) id
  · intro j member unread
    by_cases mine : j = k
    · subst mine
      refine ⟨.inl (by simpa using owner.turn), ?_⟩
      rw [dataAt_setData _ _ _ inside, if_pos rfl, owner.claimed]
      rfl
    · have old : j ∈ log.written := by
        rcases List.mem_append.mp member with old | new
        · exact old
        · exact absurd (List.mem_singleton.mp new) mine
      have live := slots.live j old unread
      refine ⟨by simpa using live.turn, ?_⟩
      rw [dataAt_setData _ _ _ inside, if_neg (live.elsewhere slots.two owner.turn mine)]
      exact live.item

theorem Slots.publish (slots : Slots e buffer log) (next : value.toNat = k + 1)
    (owner : Produces e buffer log call item k) (written : k ∈ log.written) :
    Slots e (setSequence buffer (slot e k) value) log := by
  have size := slots.size
  have two := slots.two
  apply slots.store (by simp) slots.writtenClaimed slots.loadedTaken
  · intro p low high
    by_cases same : slot e k = slot e p
    · -- the slot of `k` in the window is the one of `k` itself
      have shown : turnAt e buffer p = k := (turnAt_congr same.symm).trans owner.turn
      have mine : p = k := by
        cases slots.window p low high with
        | claimed inside turn => omega
        | published inside turn => exact absurd (shown.symm.trans turn) (turn_clash two same)
        | free ahead turn => omega
        | held ahead old turn =>
          have around : slot e (p + 1) = slot e p := by
            rw [show p + 1 = k + 2 ^ e by omega, slot_add_turn]
            exact same
          exact absurd around (slot_succ_ne two p)
      subst mine
      refine .published (lt_of_claimed owner.claimed) ?_ written ?_
      · rw [turnAt_setSequence_same size _ rfl, next]
      · intro read
        have := slots.loadedTaken _ read
        have := owner.ahead
        omega
    · exact (slots.window p low high).congr (turnAt_setSequence_ne size _ same) rfl id id
  · intro j old unread
    have live := slots.live j old unread
    by_cases mine : j = k
    · subst mine
      refine ⟨.inr ?_, by simpa using live.item⟩
      rw [turnAt_setSequence_same size _ rfl, next]
    · have other := live.elsewhere two owner.turn mine
      refine ⟨?_, by simpa using live.item⟩
      rw [turnAt_setSequence_ne size _ other]
      exact live.turn

section

variable (slots : Slots e buffer log)
include slots

/-- The slot a consumer finds published holds an item nobody has read. -/
theorem Slots.ready (ready : turnAt e buffer log.taken.length = log.taken.length + 1) :
    log.taken.length < log.claimed.length ∧ log.taken.length ∈ log.written ∧
      log.taken.length ∉ log.loaded := by
  have positive := Nat.two_pow_pos e
  cases slots.window log.taken.length le_rfl (by omega) with
  | claimed inside turn => omega
  | published inside turn written unread => exact ⟨inside, written, unread⟩
  | free ahead turn => omega
  | held ahead old turn => omega

theorem Slots.take (waiting : call ∉ log.taken) (called : call < log.dequeues)
    (ready : turnAt e buffer log.taken.length = log.taken.length + 1) :
    Slots e buffer (log.take call) := by
  have grown : (log.take call).taken.length = log.taken.length + 1 := by simp [Log.take]
  obtain ⟨inside, -, -⟩ := slots.ready ready
  have bounded := slots.bounded
  exact {
    __ := slots
    ordered := by rw [grown]; exact inside
    bounded := by
      rw [grown]
      exact Nat.le_trans bounded (by omega)
    takenOnce := slots.takenOnce.append (List.nodup_singleton _) (by simpa using waiting)
    takenCalled := forall_mem_concat slots.takenCalled called
    loadedTaken := by
      intro k member
      have := slots.loadedTaken k member
      omega
    window := by
      intro p low high
      rw [grown] at low high
      by_cases last : p = log.taken.length + 2 ^ e
      · -- the slot just taken now waits for its release
        have shown : turnAt e buffer p = log.taken.length + 1 := by
          rw [last, ← ready]
          exact turnAt_congr (slot_add_turn e _)
        exact .held (by rw [last]; exact bounded) (by omega) (by rw [shown]; omega)
      · exact (slots.window p (by omega) (by omega)).congr rfl rfl id id
    live := fun k written unread =>
      ⟨(slots.live k written unread).turn, (slots.live k written unread).item⟩ }

theorem Slots.load (owner : Consumes e buffer log call k) :
    Slots e buffer { log with loaded := log.loaded ++ [k] } := by
  have taken := lt_of_taken owner.taken
  apply slots.store rfl slots.writtenClaimed
  · exact forall_mem_concat slots.loadedTaken taken
  · intro p low high
    refine (slots.window p low high).congr rfl rfl id ?_
    intro unread member
    rcases List.mem_append.mp member with old | new
    · exact unread old
    · have := List.mem_singleton.mp new
      omega
  · intro j written unread
    have live := slots.live j written (fun old => unread (List.mem_append_left _ old))
    exact ⟨live.turn, live.item⟩

/-- The consumer of a position reads the item its producer claimed it for. -/
theorem Slots.loads (owner : Consumes e buffer log call k)
    (written : k ∈ log.written) (unread : k ∉ log.loaded) :
    Delivered log call (dataAt buffer (slot e k)) := by
  have live := slots.live _ written unread
  obtain ⟨⟨producer, item⟩, claimed, data⟩ := Option.map_eq_some_iff.mp live.item
  exact ⟨k, producer, owner.taken, by rw [claimed, ← data]⟩

end

/-- A consumer that has read its item shares its slot with no unread one. -/
theorem Live.elsewhere_of_consumed (two : 1 ≤ e) (live : Live e buffer log j)
    (turn : turnAt e buffer k = k + 1) (other : j ≠ k) : slot e k ≠ slot e j := by
  intro same
  have shown : turnAt e buffer j = k + 1 := (turnAt_congr same.symm).trans turn
  rcases live.turn with mine | mine
  · exact turn_clash two same.symm (by omega)
  · omega

theorem Slots.clear (slots : Slots e buffer log) (owner : Consumes e buffer log call k)
    (read : k ∈ log.loaded) : Slots e (setData buffer (slot e k) none) log := by
  have inside := slots.slot_inside k
  apply slots.store (by simp) slots.writtenClaimed slots.loadedTaken
  · intro p low high
    exact (slots.window p low high).congr (by simp) rfl id id
  · intro j written unread
    have live := slots.live j written unread
    have other : j ≠ k := by
      rintro rfl
      exact unread read
    refine ⟨by simpa using live.turn, ?_⟩
    rw [dataAt_setData _ _ _ inside, if_neg (live.elsewhere_of_consumed slots.two owner.turn other)]
    exact live.item

theorem Slots.release (slots : Slots e buffer log) (next : value.toNat = k + 2 ^ e)
    (owner : Consumes e buffer log call k) (read : k ∈ log.loaded) :
    Slots e (setSequence buffer (slot e k) value) log := by
  have size := slots.size
  have two := slots.two
  apply slots.store (by simp) slots.writtenClaimed slots.loadedTaken
  · intro p low high
    by_cases same : slot e k = slot e p
    · -- the window shows the slot at the next turn
      have shown : turnAt e buffer p = k + 1 := (turnAt_congr same.symm).trans owner.turn
      have taken := lt_of_taken owner.taken
      cases slots.window p low high with
      | published inside turn => omega
      | claimed _ turn | free _ turn => exact absurd (turn.symm.trans shown) (turn_clash two same.symm)
      | held ahead old turn =>
        refine .free ahead ?_
        rw [turnAt_setSequence_same size _ same, next]
        omega
    · exact (slots.window p low high).congr (turnAt_setSequence_ne size _ same) rfl id id
  · intro j written unread
    have live := slots.live j written unread
    have other : j ≠ k := by
      rintro rfl
      exact unread read
    refine ⟨?_, by simpa using live.item⟩
    rw [turnAt_setSequence_ne size _ (live.elsewhere_of_consumed two owner.turn other)]
    exact live.turn

theorem Slots.start (slots : Slots e buffer log) (items : List (Option M)) (count : Nat) :
    Slots e buffer
      { log with enqueues := log.enqueues ++ items, dequeues := log.dequeues + count } where
  __ := slots
  called := by
    intro call item member
    have found := slots.called call item member
    rw [List.getElem?_append_left (List.getElem?_eq_some_iff.mp found).1]
    exact found
  takenCalled := fun call member => Nat.lt_add_right count (slots.takenCalled call member)
  window := fun p low high => (slots.window p low high).congr rfl rfl id id
  live := fun k written unread =>
    ⟨(slots.live k written unread).turn, (slots.live k written unread).item⟩

theorem turnAt_fresh (fits : e ≤ 62) (inside : p < 2 ^ e) :
    turnAt e (fresh (2 ^ e) : List (Node M)) p = p := by
  have bound : 2 ^ e ≤ 2 ^ 62 := Nat.pow_le_pow_right (by omega) fits
  have home : slot e p = p := Nat.mod_eq_of_lt inside
  rw [turnAt, home, sequenceAt_fresh inside, toNat_word (by omega)]

theorem Slots.fresh (two : 1 ≤ e) (fits : e ≤ 62) :
    Slots e (Ring.fresh (2 ^ e) : List (Node M)) {} where
  two := two
  fits := fits
  size := by simp
  ordered := le_rfl
  bounded := by simp
  called := by simp
  claimedOnce := by simp
  takenOnce := by simp
  takenCalled := by simp
  writtenClaimed := by simp
  loadedTaken := by simp
  window := by
    intro p _ high
    exact .free (Nat.zero_le p) (turnAt_fresh fits (by simpa using high))
  live := by simp

end Portask.Lib.Ring
