import Portask.Kafka.GroupMembership
import Portask.Lib.Assoc

/-! # The generation as a fence

A caller that carries the generation of an earlier membership is to be rejected. That
rests on the generation being raised by every change of the members, and a run does so
exactly if its joins of new members find the group stable, no group loses its last member
and the generation does not leave its 32 bits.
-/

namespace Portask.Kafka

open Lib Portask.Types ConsumerGroup

def SameMembers (group after : ConsumerGroup) : Prop :=
  ∀ id, id ∈ group.members ↔ id ∈ after.members

/-- The generation does not go down, and goes up if the members change. -/
def Rises (group after : ConsumerGroup) : Prop :=
  group.generation ≤ after.generation ∧
    (¬ SameMembers group after → group.generation < after.generation)

namespace ConsumerGroup

variable {group : ConsumerGroup}

/-- The call is neither a join of a new member in a group that is not stable, nor does it
    take the last member away, nor does it let the generation wrap. -/
def Advances (group : ConsumerGroup) : GroupCall → Prop
  | .join _ request _ nanos =>
    (request.memberIDAt nanos ∈ group.members ∨ group.state = .stable) ∧
      (group.state = .stable → group.generation < Int32.maxValue)
  | .leave _ memberID _ =>
    (group.members.erase memberID).keys ≠ [] ∧ group.generation < Int32.maxValue
  | .check _ now _ =>
    group.expiredMembers now = [] ∨
      (eraseAll group.members (group.expiredMembers now)).keys ≠ [] ∧ group.generation < Int32.maxValue
  | .sync .. | .heartbeat .. => True

instance (group : ConsumerGroup) : (call : GroupCall) → Decidable (group.Advances call)
  | .join _ _ _ _ => inferInstanceAs (Decidable (_ ∧ _))
  | .leave _ _ _ => inferInstanceAs (Decidable (_ ∧ _))
  | .check _ _ _ => inferInstanceAs (Decidable (_ ∨ _))
  | .sync .. | .heartbeat .. => .isTrue trivial

end ConsumerGroup

variable {generation : Int32}

theorem toInt_succ (room : generation < Int32.maxValue) :
    (generation + 1).toInt = generation.toInt + 1 := by
  rw [Int32.lt_iff_toInt_lt] at room
  have low := Int32.le_toInt generation
  have top : Int32.maxValue.toInt = 2147483647 := rfl
  rw [Int32.toInt_add]
  exact Int.bmod_eq_of_le (by simp; omega) (by simp; omega)

theorem wraps (full : ¬ generation < Int32.maxValue) : generation + 1 < generation := by
  have top : Int32.maxValue.toInt = 2147483647 := rfl
  have high := Int32.toInt_lt generation
  rw [Int32.lt_iff_toInt_lt] at full
  obtain rfl : generation = Int32.maxValue := Int32.toInt_inj.mp (by omega)
  decide

theorem le_succ_iff : generation ≤ generation + 1 ↔ generation < Int32.maxValue := by
  constructor
  · intro le
    by_contra full
    exact absurd le (Int32.not_le.mpr (wraps full))
  · intro room
    rw [Int32.le_iff_toInt_le, toInt_succ room]
    omega

theorem lt_succ_iff : generation < generation + 1 ↔ generation < Int32.maxValue := by
  constructor
  · exact fun less => le_succ_iff.mp (Int32.le_of_lt less)
  · intro room
    rw [Int32.lt_iff_toInt_lt, toInt_succ room]
    omega

namespace ConsumerGroup

variable {group : ConsumerGroup} {after : ConsumerGroup}

theorem join_generation (request : JoinRequest) (now : Int) (nanos : Nat) :
    (group.join request now nanos).1.generation =
      if group.state = .stable then group.generation + 1 else group.generation := by
  have state : (group.enrol request (request.memberIDAt nanos) now).state = group.state := by
    rw [enrol]
    split <;> rfl
  have generation : (group.enrol request (request.memberIDAt nanos) now).generation =
      group.generation := by
    rw [enrol]
    split <;> rfl
  simp only [join, startRebalance, state]
  split
  · exact congrArg (· + 1) generation
  · exact generation

theorem sync_generation (memberID : GoString) (generationID : Int32)
    (assignments : Assignments) (now : Int) :
    (group.sync memberID generationID assignments now).1.generation = group.generation := by
  obtain ⟨err, result⟩ | ⟨-, member, -, ⟨-, result⟩ | ⟨-, result⟩⟩ :=
    group.sync_cases memberID generationID assignments now
  all_goals rw [result]

theorem heartbeat_generation (memberID : GoString) (generationID : Int32) (now : Int) :
    (group.heartbeat memberID generationID now).1.generation = group.generation := by
  obtain ⟨err, result⟩ | ⟨-, member, -, result⟩ := group.heartbeat_cases memberID generationID now
  all_goals rw [result]

/-- A rise by one, to a membership that may or may not be the same. -/
theorem rises_succ (generation : after.generation = group.generation + 1) :
    Rises group after ↔ group.generation < Int32.maxValue := by
  rw [Rises, generation, le_succ_iff]
  exact ⟨And.left, fun room => ⟨room, fun _ => lt_succ_iff.mpr room⟩⟩

theorem rises_still (generation : after.generation = group.generation) :
    Rises group after ↔ SameMembers group after := by
  rw [Rises, generation]
  constructor
  · rintro ⟨-, changed⟩
    by_contra differ
    exact Int32.lt_irrefl (changed differ)
  · exact fun same => ⟨Int32.le_refl _, fun differ => absurd same differ⟩

theorem join_rises (request : JoinRequest) (now : Int) (nanos : Nat) :
    Rises group (group.join request now nanos).1 ↔
      (request.memberIDAt nanos ∈ group.members ∨ group.state = .stable) ∧
        (group.state = .stable → group.generation < Int32.maxValue) := by
  have generation : (group.join request now nanos).1.generation = _ :=
    join_generation request now nanos
  by_cases stable : group.state = .stable
  · rw [if_pos stable] at generation
    simp [rises_succ generation, stable]
  · rw [if_neg stable] at generation
    rw [rises_still generation, SameMembers]
    simp only [stable, or_false, false_implies, and_true, join_members, mem_enrol]
    constructor
    · exact fun same => (same _).mpr (.inl rfl)
    · intro present id
      constructor
      · exact .inr
      · rintro (rfl | inside)
        · exact present
        · exact inside

/-- After a deletion of members the generation rises if somebody stays, and goes back to
    zero if not. -/
theorem shrink_rises (nonneg : 0 ≤ group.generation) (some : ∃ id, id ∈ group.members)
    {members leaderGone choice} :
    Rises group (({ group with members := members }).shrink leaderGone choice) ↔
      members.keys ≠ [] ∧ group.generation < Int32.maxValue := by
  by_cases left : members.keys = []
  · have gone : ({ group with members := members } : ConsumerGroup).hasMembers = false := by
      simp [hasMembers, left]
    simp only [shrink, gone, left, ne_eq, not_true_eq_false, false_and, iff_false]
    rintro ⟨-, changed⟩
    obtain ⟨id, inside⟩ := some
    have differ :
        ¬ SameMembers group { group with members := members, state := .empty, leader := [], generation := 0 } := by
      intro same
      have still := AList.mem_keys.mp ((same id).mp inside)
      simp [left] at still
    exact absurd (changed differ) (Int32.not_lt.mpr nonneg)
  · have stays : ({ group with members := members } : ConsumerGroup).hasMembers = true := by
      simp [hasMembers, left]
    simp only [shrink, stays, ne_eq, left, not_false_eq_true, true_and]
    exact rises_succ rfl

theorem shrink_members (leaderGone : Bool) (choice : GoString) :
    (group.shrink leaderGone choice).members = group.members := by
  rw [shrink]
  split <;> rfl

theorem act_rises (nonneg : 0 ≤ group.generation) (some : ∃ id, id ∈ group.members)
    (call : GroupCall) : Rises group (group.act call) ↔ group.Advances call := by
  cases call with
  | join _ request now nanos => exact join_rises request now nanos
  | sync _ memberID generationID assignments now =>
    rw [act, rises_still (sync_generation memberID generationID assignments now)]
    exact iff_true_intro fun id => mem_sync.symm
  | heartbeat _ memberID generationID now =>
    rw [act, rises_still (heartbeat_generation memberID generationID now)]
    exact iff_true_intro fun id => mem_heartbeat.symm
  | leave _ memberID choice => exact shrink_rises nonneg some
  | check _ now choice =>
    rw [act, check, Advances]
    by_cases none : group.expiredMembers now = []
    · simp only [none, if_pos, true_or, iff_true]
      exact (rises_still rfl).mpr fun id => Iff.rfl
    · simp only [none, if_neg, not_false_eq_true, false_or]
      exact shrink_rises nonneg some

end ConsumerGroup

/-- No group goes away, and every group's generation rises with its members. -/
def Rising (gc : GroupCoordinator) (call : GroupCall) : Prop :=
  ∀ id group, gc.groups.lookup id = some group →
    ∃ after, (coordinator.apply gc call).1.groups.lookup id = some after ∧ Rises group after

def KeepsMembers (id : GoString) (gc : GroupCoordinator) (call : GroupCall) : Prop :=
  ∀ group after, gc.groups.lookup id = some group →
    (coordinator.apply gc call).1.groups.lookup id = some after → SameMembers group after

def Rejects (gc : GroupCoordinator) (id : GoString) (generation : Int32) : Prop :=
  ∀ memberID assignments now,
    (gc.syncGroup id memberID generation assignments now).2 = .error .generationMismatch ∧
      ∃ expected, (gc.heartbeat id memberID generation now).2 =
        some (.heartbeatMismatch expected generation)

structure Fenced (calls : List GroupCall) : Prop where
  rises : coordinator.Along Rising newGroupCoordinator calls
  rejects : ∀ before between after, before ++ between ++ after = calls → ∀ id group,
    (coordinator.run newGroupCoordinator before).1.groups.lookup id = some group →
    ¬ coordinator.Along (KeepsMembers id) (coordinator.run newGroupCoordinator before).1 between →
    Rejects (coordinator.run newGroupCoordinator (before ++ between)).1 id group.generation

/-- The call, if it finds its group, lets it advance. -/
def Advancing (gc : GroupCoordinator) (call : GroupCall) : Prop :=
  ∀ group ∈ gc.groups.lookup call.groupID, group.Advances call

instance (gc : GroupCoordinator) (call : GroupCall) : Decidable (Advancing gc call) :=
  inferInstanceAs (Decidable (∀ group ∈ _, _))

/-- What makes a fall back to zero a fall: nobody is below zero, and nobody is empty. -/
structure Founded (group : ConsumerGroup) : Prop where
  nonneg : 0 ≤ group.generation
  some : ∃ id, id ∈ group.members

section

variable {gc : GroupCoordinator} {call : GroupCall} {id : GoString}

theorem rising_iff :
    Rising gc call ↔ ∀ group ∈ gc.groups.lookup call.groupID, Rises group (group.act call) := by
  constructor
  · intro rising group found
    obtain ⟨after, there, rises⟩ := rising _ group found
    rw [lookup_apply, if_pos rfl, found] at there
    cases there
    exact rises
  · intro rises id group found
    rw [lookup_apply, found]
    by_cases here : id = call.groupID
    · subst here
      exact ⟨group.act call, by simp, rises group found⟩
    · exact ⟨group, by simp [here], (rises_still rfl).mpr fun id => Iff.rfl⟩

theorem rising_iff_advancing (founded : gc.Each Founded) : Rising gc call ↔ Advancing gc call := by
  rw [rising_iff, Advancing]
  refine forall_congr' fun group => forall_congr' fun found => ?_
  have here := founded _ group found
  exact act_rises here.nonneg here.some call

theorem ConsumerGroup.join_some (group : ConsumerGroup) (request : JoinRequest) (now : Int)
    (nanos : Nat) : ∃ id, id ∈ (group.join request now nanos).1.members :=
  ⟨request.memberIDAt nanos, by rw [join_members, mem_enrol]; exact .inl rfl⟩

variable {group : ConsumerGroup}

theorem Founded.act (founded : Founded group) (advances : group.Advances call) :
    Founded (group.act call) where
  nonneg :=
    Int32.le_trans founded.nonneg ((act_rises founded.nonneg founded.some call).mpr advances).1
  some := by
    cases call with
    | join _ request now nanos => exact group.join_some request now nanos
    | sync => exact founded.some.imp fun id inside => mem_sync.mpr inside
    | heartbeat => exact founded.some.imp fun id inside => mem_heartbeat.mpr inside
    | leave _ memberID choice =>
      rw [act, leave, shrink_members]
      exact exists_mem_of_keys advances.1
    | check _ now choice =>
      rw [act, check]
      rcases advances with none | ⟨left, -⟩
      · rw [if_pos none]
        exact founded.some
      · split
        · exact founded.some
        · rw [shrink_members]
          exact exists_mem_of_keys left

theorem founded_apply (founded : gc.Each Founded) (advancing : Advancing gc call) :
    (coordinator.apply gc call).1.Each Founded := by
  intro id after found
  obtain ⟨rfl, group, there, rfl⟩ | ⟨request, now, nanos, -, rfl⟩ | ⟨-, there⟩ := apply_cases found
  · exact (founded _ group there).act (advancing group there)
  · refine ⟨?_, join_some _ request now nanos⟩
    rw [join_generation]
    exact Int32.le_refl 0
  · exact founded id after there

/-- Over a run, too, the generation rises with the members. -/
theorem run_rises (rising : coordinator.Along Rising gc calls)
    (found : gc.groups.lookup id = some group) :
    ∃ after, (coordinator.run gc calls).1.groups.lookup id = some after ∧
      group.generation ≤ after.generation ∧
      (¬ coordinator.Along (KeepsMembers id) gc calls → group.generation < after.generation) := by
  induction calls generalizing gc group with
  | nil => exact ⟨group, found, Int32.le_refl _, fun changed => absurd trivial changed⟩
  | cons call rest ih =>
    obtain ⟨mid, there, le, changes⟩ := rising.1 id group found
    obtain ⟨after, last, later, changesLater⟩ := ih rising.2 there
    refine ⟨after, last, Int32.le_trans le later, fun changed => ?_⟩
    by_cases same : SameMembers group mid
    · have keeps : KeepsMembers id gc call := by
        intro before next here after
        obtain rfl : group = before := Option.some.inj (found.symm.trans here)
        obtain rfl : mid = next := Option.some.inj (there.symm.trans after)
        exact same
      exact Int32.lt_of_le_of_lt le (changesLater fun kept => changed ⟨keeps, kept⟩)
    · exact Int32.lt_of_lt_of_le (changes same) later

theorem rejects_of_lt (found : gc.groups.lookup id = some group)
    (less : generation < group.generation) : Rejects gc id generation := by
  intro memberID assignments now
  have differ : group.generation ≠ generation := (Int32.ne_of_lt less).symm
  rw [GroupCoordinator.syncGroup, GroupCoordinator.heartbeat, found]
  simp [sync, heartbeat, differ]

end

theorem along_rising_iff (calls : List GroupCall) :
    coordinator.Along Rising newGroupCoordinator calls ↔
      coordinator.Along Advancing newGroupCoordinator calls := by
  have start : newGroupCoordinator.Each Founded := fun id group found => nomatch found
  constructor
  · refine Object.along_of_invariant (fun gc call founded rising => ?_) start
    have advancing := (rising_iff_advancing founded).mp rising
    exact ⟨advancing, founded_apply founded advancing⟩
  · refine Object.along_of_invariant (fun gc call founded advancing => ?_) start
    exact ⟨(rising_iff_advancing founded).mpr advancing, founded_apply founded advancing⟩

/-- The generation fences off earlier memberships exactly on the runs whose every call
    lets its group advance. -/
theorem fenced_iff (calls : List GroupCall) :
    Fenced calls ↔ coordinator.Along Advancing newGroupCoordinator calls := by
  constructor
  · exact fun fenced => (along_rising_iff calls).mp fenced.rises
  · intro advancing
    have rises := (along_rising_iff calls).mpr advancing
    refine ⟨rises, ?_⟩
    rintro before between after rfl id group found changed
    have rising := (Object.along_append.mp (Object.along_append.mp rises).1).2
    obtain ⟨current, there, -, less⟩ := run_rises rising found
    rw [Object.run_append]
    exact rejects_of_lt there (less changed)

section Runs

def joins (memberID : GoString) : GroupCall := .join [0x67] ⟨memberID, [], [], 10, 10, none⟩ 0 0

/-- The second member joins a stable group, and the first leaves it. -/
def stableJoin : List GroupCall :=
  [joins [0x61], .sync [0x67] [0x61] 0 (AList.singleton [0x61] none) 1, joins [0x62],
    .leave [0x67] [0x61] []]

theorem fenced_iff_stable :
    Fenced stableJoin ∧
      ((coordinator.run newGroupCoordinator stableJoin).1.groups.lookup [0x67]).map
      (·.generation) = some 2 :=
  ⟨(fenced_iff stableJoin).mpr (by decide +kernel), by decide +kernel⟩

/-- Two members join a new group at generation 0, and a heartbeat of the first with the
    generation of the membership without the second goes through. The generation of a group
    that its last member leaves goes back to 0. -/
theorem not_fenced_join :
    ¬ Fenced [joins [0x61], joins [0x62]] ∧
      ((coordinator.run newGroupCoordinator [joins [0x61], joins [0x62]]).1.heartbeat
        [0x67] [0x61] 0 1).2 = none ∧
      ¬ Fenced (stableJoin ++ [.leave [0x67] [0x62] []]) := by
  refine ⟨fun fenced => ?_, by decide +kernel, fun fenced => ?_⟩
  · exact absurd ((along_rising_iff _).mp fenced.rises) (by decide +kernel)
  · exact absurd ((along_rising_iff _).mp fenced.rises) (by decide +kernel)

end Runs

end Portask.Kafka
